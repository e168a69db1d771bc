import LetLang.Proofs.Display.Quotes
import LetLang.Proofs.Number.Texts
import LetLang.Tree.Display

namespace LetLang

namespace Row

def Solid (text : String) : Prop := text.toList.head? ≠ some ' ' ∧ '\n' ∉ text.toList

instance (text : String) : Decidable (Solid text) :=
  inferInstanceAs (Decidable (_ ∧ _))

theorem Solid.append {s t : String} (hs : Solid s) (ht : Solid t) : Solid (s ++ t) := by
  unfold Solid at *
  rw [String.toList_append, List.head?_append, List.mem_append, not_or]
  refine ⟨?_, hs.2, ht.2⟩
  cases h : s.toList.head? with
  | none => exact ht.1
  | some c =>
    rw [h] at hs
    exact hs.1

theorem solid_quoted (s : String) : Solid (quoted s) := by
  rw [Solid, quoted, String.toList_ofList]
  refine ⟨?_, Quoted.newline_not_mem_encode s.toList⟩
  rw [Quoted.encode, List.head?_cons]
  rcases Quoted.isMark_mark s.toList with h | h <;> (rw [h]; decide)

theorem solid_number (x : Number) : Solid x.text := by
  have visible := x.visible_chars
  rw [Solid, Number.text, String.toList_ofList]
  refine ⟨fun blank => ?_, fun feed => ?_⟩
  · exact absurd (visible ' ' (List.mem_of_head? blank)) (by decide)
  · exact absurd (visible '\n' feed) (by decide)

theorem solid_flag (b : Bool) : Solid (Node.flagText b) := by
  cases b <;> decide

theorem solid_label (kind : Kind) : Solid kind.label := by
  cases kind <;> decide

theorem indentation_unique {n m : Nat} {cs ds : List Char} (hc : cs.head? ≠ some ' ')
    (hd : ds.head? ≠ some ' ')
    (h : List.replicate n ' ' ++ cs = List.replicate m ' ' ++ ds) : n = m ∧ cs = ds := by
  induction n generalizing m with
  | zero =>
    cases m with
    | zero => exact ⟨rfl, h⟩
    | succ m => exact absurd (congrArg List.head? h) hc
  | succ n ih =>
    cases m with
    | zero => exact absurd (congrArg List.head? h.symm) hd
    | succ m =>
      obtain ⟨rfl, same⟩ := ih (List.cons.inj h).2
      exact ⟨rfl, same⟩

theorem toList_indented (r : Row) :
    r.indented.toList = List.replicate (4 * r.depth) ' ' ++ r.text.toList := by
  rw [indented, String.toList_append, String.toList_ofList]

theorem indented_unique {r s : Row} (hr : Solid r.text) (hs : Solid s.text)
    (h : r.indented.toList = s.indented.toList) : r = s := by
  rw [toList_indented, toList_indented] at h
  obtain ⟨depth, text⟩ := indentation_unique hr.1 hs.1 h
  obtain ⟨d, t⟩ := r
  obtain ⟨d', t'⟩ := s
  obtain rfl : d = d' := Nat.eq_of_mul_eq_mul_left (by decide) depth
  obtain rfl : t = t' := String.toList_inj.mp text
  rfl

theorem newline_not_mem_indented {r : Row} (h : Solid r.text) : '\n' ∉ r.indented.toList := by
  rw [toList_indented, List.mem_append, not_or]
  exact ⟨fun feed => absurd (List.eq_of_mem_replicate feed) (by decide), h.2⟩

theorem splitOn_intercalate {rs : List Row} (h : ∀ r ∈ rs, Solid r.text) (hn : rs ≠ []) :
    ("\n".intercalate (rs.map indented)).toList.splitOn '\n' = rs.map (·.indented.toList) := by
  rw [String.toList_intercalate, List.map_map]
  apply List.splitOn_intercalate '\n'
  · intro l hl
    obtain ⟨r, hr, rfl⟩ := List.mem_map.mp hl
    exact newline_not_mem_indented (h r hr)
  · simpa using hn

theorem rows_unique {rs ss : List Row} (hr : ∀ r ∈ rs, Solid r.text) (hs : ∀ r ∈ ss, Solid r.text)
    (h : rs.map (·.indented.toList) = ss.map (·.indented.toList)) : rs = ss := by
  induction rs generalizing ss with
  | nil => exact (List.map_eq_nil_iff.mp h.symm).symm
  | cons r rs ih =>
    cases ss with
    | nil => cases h
    | cons s ss =>
      obtain ⟨first, others⟩ := List.forall_mem_cons.mp hr
      obtain ⟨first', others'⟩ := List.forall_mem_cons.mp hs
      obtain ⟨head, tail⟩ := List.cons.inj h
      rw [indented_unique first first' head, ih others others' tail]

end Row

namespace Node
open Row

def innerRows (level : Int) : Node → List Row
  | program body => listRows level "body" body
  | declaration name value constant =>
    fieldRow level "identifier" (quoted name) ::
      (optionRows level value ++ [fieldRow level "constant" (flagText constant)])
  | assignment target value =>
    rows (level + 1) (fieldStart level "assignee") "," target ++
      rows (level + 1) (fieldStart level "value") "," value
  | binary left right operator =>
    rows (level + 1) (fieldStart level "left") "," left ++
      (rows (level + 1) (fieldStart level "right") "," right ++
        [fieldRow level "operator" (quoted operator)])
  | identifier name => [fieldRow level "symbol" (quoted name)]
  | number value => [fieldRow level "value" value.text]
  | property key value => fieldRow level "key" (quoted key) :: optionRows level value
  | object properties => listRows level "properties" properties

theorem rows_eq (level : Int) (start : Row) (after : String) (n : Node) :
    n.rows level start after =
      openingRow start n.kind :: (n.innerRows level ++ [closingRow level after]) := by
  cases n <;> simp [rows, innerRows, kind]

theorem listRows_cons (level : Int) (field : String) (n : Node) (ns : List Node) :
    listRows level field (n :: ns) = ⟨level.toNat + 1, field ++ "=["⟩ ::
      (itemRows (level + 2) (n :: ns) ++ [⟨level.toNat + 1, "],"⟩]) := by
  rw [listRows, itemRows]

theorem solid_openingRow {start : Row} (hs : Solid start.text) (kind : Kind) :
    Solid (openingRow start kind).text :=
  (hs.append (solid_label kind)).append (by decide)

theorem solid_closingRow (level : Int) {after : String} (ha : Solid after) :
    Solid (closingRow level after).text :=
  Solid.append (by decide) ha

theorem solid_fieldRow (level : Int) {field text : String} (hf : Solid field) (ht : Solid text) :
    Solid (fieldRow level field text).text :=
  ((hf.append (by decide)).append ht).append (by decide)

theorem solid_fieldStart (level : Int) {field : String} (hf : Solid field) :
    Solid (fieldStart level field).text :=
  hf.append (by decide)

theorem solid_itemStart (level : Int) : Solid (itemStart level).text :=
  show Solid "" by decide

def RowsSolid (n : Node) (level : Int) : Prop :=
  ∀ {start after}, Solid start.text → Solid after → ∀ r ∈ n.rows level start after, Solid r.text

theorem solid_fieldNode {n : Node} {level : Int} (h : n.RowsSolid (level + 1)) {field : String}
    (hf : Solid field) :
    ∀ r ∈ n.rows (level + 1) (fieldStart level field) ",", Solid r.text :=
  h (solid_fieldStart level hf) (by decide)

theorem solid_optionRows (level : Int) {value : Option Node}
    (h : ∀ n ∈ value, n.RowsSolid (level + 1)) : ∀ r ∈ optionRows level value, Solid r.text := by
  cases value with
  | none => exact List.forall_mem_singleton.mpr (solid_fieldRow level (by decide) (by decide))
  | some n => exact solid_fieldNode (h n rfl) (by decide)

theorem solid_itemRows {level : Int} {ns : List Node} (h : ∀ n ∈ ns, n.RowsSolid level) :
    ∀ r ∈ itemRows level ns, Solid r.text := by
  induction ns with
  | nil => exact nofun
  | cons n ns ih =>
    obtain ⟨first, others⟩ := List.forall_mem_cons.mp h
    rw [itemRows, List.forall_mem_append]
    exact ⟨first (solid_itemStart level) (by decide), ih others⟩

theorem solid_listRows (level : Int) {field : String} (hf : Solid field) {ns : List Node}
    (h : ∀ n ∈ ns, n.RowsSolid (level + 2)) : ∀ r ∈ listRows level field ns, Solid r.text := by
  cases ns with
  | nil => exact List.forall_mem_singleton.mpr (solid_fieldRow level hf (by decide))
  | cons n ns =>
    rw [listRows_cons, List.forall_mem_cons, List.forall_mem_append, List.forall_mem_singleton]
    exact ⟨hf.append (by decide), solid_itemRows h, show Solid "]," by decide⟩

theorem rowsSolid_of_inner {n : Node} {level : Int} (h : ∀ r ∈ n.innerRows level, Solid r.text) :
    n.RowsSolid level := by
  intro start after hs ha
  rw [rows_eq, List.forall_mem_cons, List.forall_mem_append, List.forall_mem_singleton]
  exact ⟨solid_openingRow hs n.kind, h, solid_closingRow level ha⟩

theorem rowsSolid (n : Node) (level : Int) : n.RowsSolid level := by
  induction n using Node.induct generalizing level with
  | program body ih =>
    apply rowsSolid_of_inner
    exact solid_listRows level (by decide) fun n hn => ih n hn _
  | declaration name value constant ih =>
    apply rowsSolid_of_inner
    rw [innerRows, List.forall_mem_cons, List.forall_mem_append, List.forall_mem_singleton]
    exact ⟨solid_fieldRow level (by decide) (solid_quoted name),
      solid_optionRows level fun n hn => ih n hn _,
      solid_fieldRow level (by decide) (solid_flag constant)⟩
  | assignment target value iht ihv =>
    apply rowsSolid_of_inner
    rw [innerRows, List.forall_mem_append]
    exact ⟨solid_fieldNode (iht _) (by decide), solid_fieldNode (ihv _) (by decide)⟩
  | binary left right operator ihl ihr =>
    apply rowsSolid_of_inner
    rw [innerRows, List.forall_mem_append, List.forall_mem_append, List.forall_mem_singleton]
    exact ⟨solid_fieldNode (ihl _) (by decide), solid_fieldNode (ihr _) (by decide),
      solid_fieldRow level (by decide) (solid_quoted operator)⟩
  | identifier name =>
    apply rowsSolid_of_inner
    exact List.forall_mem_singleton.mpr (solid_fieldRow level (by decide) (solid_quoted name))
  | number value =>
    apply rowsSolid_of_inner
    exact List.forall_mem_singleton.mpr (solid_fieldRow level (by decide) (solid_number value))
  | property key value ih =>
    apply rowsSolid_of_inner
    rw [innerRows, List.forall_mem_cons]
    exact ⟨solid_fieldRow level (by decide) (solid_quoted key),
      solid_optionRows level fun n hn => ih n hn _⟩
  | object properties ih =>
    apply rowsSolid_of_inner
    exact solid_listRows level (by decide) fun n hn => ih n hn _

theorem splitOn_display (n : Node) (level : Int) :
    (n.display level).toList.splitOn '\n' =
      (n.rows level (itemStart level) "").map (·.indented.toList) := by
  apply splitOn_intercalate
  · exact n.rowsSolid level (solid_itemStart level) (by decide)
  · rw [rows_eq]
    exact List.cons_ne_nil _ _

theorem rows_of_display {n m : Node} {level : Int} (h : n.display level = m.display level) :
    n.rows level (itemStart level) "" = m.rows level (itemStart level) "" := by
  have start := solid_itemStart level
  apply rows_unique (n.rowsSolid level start (by decide)) (m.rowsSolid level start (by decide))
  rw [← splitOn_display, ← splitOn_display, h]

end Node

end LetLang
