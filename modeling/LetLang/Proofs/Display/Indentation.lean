import LetLang.Proofs.Display.Rows
import Mathlib.Data.List.Forall2

namespace LetLang

namespace Node

mutual

def reword (f : String → String) : Node → Node
  | program body => program (rewordAll f body)
  | declaration name value constant => declaration (f name) (rewordOption f value) constant
  | assignment target value => assignment (reword f target) (reword f value)
  | binary left right operator => binary (reword f left) (reword f right) (f operator)
  | identifier name => identifier (f name)
  | number value => number value
  | property key value => property (f key) (rewordOption f value)
  | object properties => object (rewordAll f properties)

def rewordOption (f : String → String) : Option Node → Option Node
  | none => none
  | some n => some (reword f n)

def rewordAll (f : String → String) : List Node → List Node
  | [] => []
  | n :: ns => reword f n :: rewordAll f ns

end

theorem kind_reword (f : String → String) (n : Node) : (n.reword f).kind = n.kind := by
  cases n <;> simp [reword, kind]

theorem rewordOption_id {value : Option Node} (h : ∀ n ∈ value, n.reword id = n) :
    rewordOption id value = value := by
  cases value with
  | none => rw [rewordOption]
  | some n => rw [rewordOption, h n rfl]

theorem rewordAll_id {ns : List Node} (h : ∀ n ∈ ns, n.reword id = n) : rewordAll id ns = ns := by
  induction ns with
  | nil => rw [rewordAll]
  | cons n ns ih =>
    obtain ⟨first, others⟩ := List.forall_mem_cons.mp h
    rw [rewordAll, first, ih others]

theorem reword_id (n : Node) : n.reword id = n := by
  induction n using Node.induct with
  | program body ih => rw [reword, rewordAll_id ih]
  | declaration name value constant ih => rw [reword, rewordOption_id ih, id]
  | assignment target value iht ihv => rw [reword, iht, ihv]
  | binary left right operator ihl ihr => rw [reword, ihl, ihr, id]
  | identifier name => rw [reword, id]
  | number value => rw [reword]
  | property key value ih => rw [reword, rewordOption_id ih, id]
  | object properties ih => rw [reword, rewordAll_id ih]

end Node

namespace Row

structure Below (k : Nat) (T : String → String → Prop) (r r' : Row) : Prop where
  depth : r'.depth = r.depth + k
  text : T r.text r'.text

structure Extends (f : String → String) (T : String → String → Prop) : Prop where
  refl : ∀ s, T s s
  append : ∀ {s s' t t'}, T s s' → T t t' → T (s ++ t) (s' ++ t')
  quoted : ∀ s, T (quoted s) (quoted (f s))

theorem extends_eq : Extends id Eq where
  refl _ := rfl
  append := by
    rintro s _ t _ rfl rfl
    rfl
  quoted _ := rfl

theorem extends_true (f : String → String) : Extends f fun _ _ => True :=
  ⟨fun _ => trivial, fun _ _ => trivial, fun _ => trivial⟩

end Row

namespace Node
open Row

section Below

variable {f : String → String} {T : String → String → Prop} {k : Nat} {level : Int}

theorem below_openingRow (h : Extends f T) {start start' : Row} (hs : Below k T start start')
    (kind : Kind) : Below k T (openingRow start kind) (openingRow start' kind) where
  depth := hs.depth
  text := h.append (h.append hs.text (h.refl _)) (h.refl _)

theorem below_at (hl : 0 ≤ level) (offset : Nat) {s s' : String} (ht : T s s') :
    Below k T ⟨level.toNat + offset, s⟩ ⟨(level + k).toNat + offset, s'⟩ where
  depth := by
    dsimp only
    omega
  text := ht

theorem below_fieldRow (h : Extends f T) (hl : 0 ≤ level) (field : String) {s s' : String}
    (ht : T s s') : Below k T (fieldRow level field s) (fieldRow (level + k) field s') :=
  below_at hl 1 (h.append (h.append (h.refl _) ht) (h.refl _))

theorem below_fieldStart (h : Extends f T) (hl : 0 ≤ level) (field : String) :
    Below k T (fieldStart level field) (fieldStart (level + k) field) :=
  below_at hl 1 (h.refl _)

theorem below_itemStart (h : Extends f T) (hl : 0 ≤ level) :
    Below k T (itemStart level) (itemStart (level + k)) :=
  below_at hl 0 (h.refl _)

theorem below_closingRow (h : Extends f T) (hl : 0 ≤ level) (after : String) :
    Below k T (closingRow level after) (closingRow (level + k) after) :=
  below_at hl 0 (h.refl _)

variable (f T k) in
def Sinks (n : Node) (level : Int) : Prop :=
  ∀ {start start' : Row} (after : String), Below k T start start' →
    List.Forall₂ (Below k T) (n.rows level start after)
      ((n.reword f).rows (level + k) start' after)

theorem sinks_fieldNode (h : Extends f T) (hl : 0 ≤ level) {n : Node}
    (hn : n.Sinks f T k (level + 1)) (field : String) :
    List.Forall₂ (Below k T) (n.rows (level + 1) (fieldStart level field) ",")
      ((n.reword f).rows (level + k + 1) (fieldStart (level + k) field) ",") := by
  rw [Int.add_right_comm]
  exact hn "," (below_fieldStart h hl field)

theorem sinks_optionRows (h : Extends f T) (hl : 0 ≤ level) {value : Option Node}
    (hv : ∀ n ∈ value, n.Sinks f T k (level + 1)) :
    List.Forall₂ (Below k T) (optionRows level value)
      (optionRows (level + k) (rewordOption f value)) := by
  cases value with
  | none =>
    rw [rewordOption, optionRows, optionRows]
    exact .cons (below_fieldRow h hl "value" (h.refl _)) .nil
  | some n =>
    rw [rewordOption, optionRows, optionRows]
    exact sinks_fieldNode h hl (hv n rfl) "value"

theorem sinks_itemRows (h : Extends f T) (hl : 0 ≤ level) {ns : List Node}
    (hn : ∀ n ∈ ns, n.Sinks f T k level) :
    List.Forall₂ (Below k T) (itemRows level ns) (itemRows (level + k) (rewordAll f ns)) := by
  induction ns with
  | nil =>
    rw [rewordAll, itemRows, itemRows]
    exact .nil
  | cons n ns ih =>
    obtain ⟨first, others⟩ := List.forall_mem_cons.mp hn
    rw [rewordAll, itemRows, itemRows]
    exact List.rel_append (first "," (below_itemStart h hl)) (ih others)

theorem sinks_listRows (h : Extends f T) (hl : 0 ≤ level) (field : String) {ns : List Node}
    (hn : ∀ n ∈ ns, n.Sinks f T k (level + 2)) :
    List.Forall₂ (Below k T) (listRows level field ns)
      (listRows (level + k) field (rewordAll f ns)) := by
  cases ns with
  | nil =>
    rw [rewordAll, listRows, listRows]
    exact .cons (below_fieldRow h hl field (h.refl _)) .nil
  | cons n ns =>
    have items := sinks_itemRows h (by omega) hn
    rw [rewordAll, Int.add_right_comm] at items
    rw [rewordAll, listRows_cons, listRows_cons]
    exact .cons (below_at hl 1 (h.refl _))
      (List.rel_append items (.cons (below_at hl 1 (h.refl _)) .nil))

theorem sinks_of_inner (h : Extends f T) (hl : 0 ≤ level) {n : Node}
    (hn : List.Forall₂ (Below k T) (n.innerRows level) ((n.reword f).innerRows (level + k))) :
    n.Sinks f T k level := by
  intro start start' after hs
  rw [rows_eq, rows_eq, kind_reword]
  exact .cons (below_openingRow h hs n.kind)
    (List.rel_append hn (.cons (below_closingRow h hl after) .nil))

theorem sinks (h : Extends f T) (n : Node) (hl : 0 ≤ level) : n.Sinks f T k level := by
  induction n using Node.induct generalizing level with
  | program body ih =>
    apply sinks_of_inner h hl
    rw [reword, innerRows, innerRows]
    exact sinks_listRows h hl "body" fun n hn => ih n hn (by omega)
  | declaration name value constant ih =>
    apply sinks_of_inner h hl
    rw [reword, innerRows, innerRows]
    refine .cons (below_fieldRow h hl _ (h.quoted name)) (List.rel_append ?_ ?_)
    · exact sinks_optionRows h hl fun n hn => ih n hn (by omega)
    · exact .cons (below_fieldRow h hl _ (h.refl _)) .nil
  | assignment target value iht ihv =>
    apply sinks_of_inner h hl
    rw [reword, innerRows, innerRows]
    exact List.rel_append (sinks_fieldNode h hl (iht (by omega)) _)
      (sinks_fieldNode h hl (ihv (by omega)) _)
  | binary left right operator ihl ihr =>
    apply sinks_of_inner h hl
    rw [reword, innerRows, innerRows]
    refine List.rel_append (sinks_fieldNode h hl (ihl (by omega)) _) (List.rel_append ?_ ?_)
    · exact sinks_fieldNode h hl (ihr (by omega)) _
    · exact .cons (below_fieldRow h hl _ (h.quoted operator)) .nil
  | identifier name =>
    apply sinks_of_inner h hl
    rw [reword, innerRows, innerRows]
    exact .cons (below_fieldRow h hl _ (h.quoted name)) .nil
  | number value =>
    apply sinks_of_inner h hl
    rw [reword, innerRows, innerRows]
    exact .cons (below_fieldRow h hl _ (h.refl _)) .nil
  | property key value ih =>
    apply sinks_of_inner h hl
    rw [reword, innerRows, innerRows]
    exact .cons (below_fieldRow h hl _ (h.quoted key))
      (sinks_optionRows h hl fun n hn => ih n hn (by omega))
  | object properties ih =>
    apply sinks_of_inner h hl
    rw [reword, innerRows, innerRows]
    exact sinks_listRows h hl "properties" fun n hn => ih n hn (by omega)

end Below

end Node

def indent (width : Nat) (text : String) : String :=
  "\n".intercalate ((text.toList.splitOn '\n').map fun line =>
    String.ofList (List.replicate width ' ' ++ line))

def indentations (text : String) : List Nat :=
  (text.toList.splitOn '\n').map fun line => (line.takeWhile (· == ' ')).length

namespace Row

theorem indented_below {k : Nat} {r r' : Row} (h : Below k Eq r r') :
    r'.indented = String.ofList (List.replicate (4 * k) ' ' ++ r.indented.toList) := by
  rw [← String.toList_inj, String.toList_ofList, toList_indented, toList_indented, h.depth,
    ← h.text, ← List.append_assoc, List.replicate_append_replicate, Nat.mul_add, Nat.add_comm]

theorem indentation_indented {r : Row} (h : Solid r.text) :
    (r.indented.toList.takeWhile (· == ' ')).length = 4 * r.depth := by
  have stops : r.text.toList.takeWhile (· == ' ') = [] := by
    cases ht : r.text.toList with
    | nil => rfl
    | cons c cs =>
      have first := h.1
      rw [ht, List.head?_cons] at first
      exact List.takeWhile_cons_of_neg (by simpa using first)
  rw [toList_indented, List.takeWhile_append_of_pos (by simp), stops, List.append_nil,
    List.length_replicate]

end Row

namespace Node
open Row

theorem indentations_display (n : Node) (level : Int) :
    indentations (n.display level) =
      (n.rows level (itemStart level) "").map fun r => 4 * r.depth := by
  rw [indentations, splitOn_display, List.map_map]
  apply List.map_congr_left
  intro r hr
  exact indentation_indented (n.rowsSolid level (solid_itemStart level) (by decide) r hr)

theorem display_deeper (n : Node) (level : Nat) :
    n.display level = indent (4 * level) (n.display 0) := by
  have top : (0 : Int) ≤ 0 := Int.le_refl 0
  have sunk := n.sinks (k := level) extends_eq top "" (below_itemStart extends_eq top)
  rw [reword_id, Int.zero_add] at sunk
  have rows : (n.rows level (itemStart level) "").map indented =
      ((n.rows 0 (itemStart 0) "").map (·.indented.toList)).map fun line =>
        String.ofList (List.replicate (4 * level) ' ' ++ line) := by
    rw [List.map_map, eq_comm, ← List.forall₂_eq_eq_eq, List.forall₂_map_left_iff,
      List.forall₂_map_right_iff]
    exact sunk.imp fun r r' hr => (indented_below hr).symm
  rw [indent, splitOn_display, ← rows, display]

theorem indentations_reword (f : String → String) (n : Node) (level : Nat) :
    indentations ((n.reword f).display level) = indentations (n.display level) := by
  have h := extends_true f
  have hl : (0 : Int) ≤ level := Int.natCast_nonneg level
  have sunk := n.sinks (k := 0) h hl "" (below_itemStart h hl)
  rw [Int.natCast_zero, Int.add_zero] at sunk
  rw [indentations_display, indentations_display, ← List.forall₂_eq_eq_eq,
    List.forall₂_map_left_iff, List.forall₂_map_right_iff]
  apply sunk.flip.imp
  intro r r' hr
  rw [hr.depth, Nat.add_zero]

theorem display_indented (n : Node) (level : Nat) :
    n.display level = indent (4 * level) (n.display 0) ∧
    ∀ f, indentations ((n.reword f).display level) = indentations (n.display level) :=
  ⟨n.display_deeper level, fun f => n.indentations_reword f level⟩

end Node

end LetLang
