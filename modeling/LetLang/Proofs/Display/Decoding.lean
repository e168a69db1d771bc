import LetLang.Proofs.Display.Rows

namespace LetLang

theorem Kind.label_injective : Function.Injective Kind.label := by
  intro kind kind' same
  cases kind <;> cases kind' <;> first | rfl | exact absurd same (by decide)

namespace Row

def end? (r : Row) : Option Char := r.text.toList.getLast?

theorem end?_append (depth : Nat) (s : String) {t : String} {c : Char}
    (h : t.toList.getLast? = some c) : (mk depth (s ++ t)).end? = some c := by
  rw [end?, String.toList_append, List.getLast?_append, h]
  rfl

end Row

namespace Node

theorem end?_openingRow (start : Row) (kind : Kind) : (openingRow start kind).end? = some '(' :=
  Row.end?_append _ _ (by decide)

theorem end?_fieldRow (level : Int) (field text : String) :
    (fieldRow level field text).end? = some ',' :=
  Row.end?_append _ _ (by decide)

theorem cons_ne_of_end? {r s : Row} {c d : Char} (hr : r.end? = some c) (hs : s.end? = some d)
    (differ : c ≠ d) (rows rows' : List Row) : r :: rows ≠ s :: rows' := by
  intro same
  rw [(List.cons.inj same).1, hs] at hr
  exact differ (Option.some.inj hr).symm

theorem openingRow_unique {start : Row} {kind kind' : Kind}
    (h : openingRow start kind = openingRow start kind') : kind = kind' := by
  have texts := congrArg Row.text h
  simp only [openingRow, String.append_assoc, String.append_right_inj, String.append_left_inj]
    at texts
  exact Kind.label_injective texts

theorem fieldRow_unique {level : Int} {field text text' : String}
    (h : fieldRow level field text = fieldRow level field text') : text = text' := by
  have texts := congrArg Row.text h
  simpa [fieldRow] using texts

theorem flagText_injective : Function.Injective flagText :=
  show ∀ b c, flagText b = flagText c → b = c by decide

def Decodes (n : Node) : Prop :=
  ∀ {m : Node} {level : Int} {start : Row} {after : String} {rest rest' : List Row},
    n.rows level start after ++ rest = m.rows level start after ++ rest' → n = m ∧ rest = rest'

theorem optionRows_unique {value value' : Option Node} (hv : ∀ n ∈ value, n.Decodes) {level : Int}
    {rest rest' : List Row}
    (h : optionRows level value ++ rest = optionRows level value' ++ rest') :
    value = value' ∧ rest = rest' := by
  have differ : ∀ (n : Node) rows rows', fieldRow level "value" "None" :: rows ≠
      n.rows (level + 1) (fieldStart level "value") "," ++ rows' := by
    intro n rows rows'
    rw [rows_eq]
    exact cons_ne_of_end? (end?_fieldRow ..) (end?_openingRow ..) (by decide) _ _
  cases value with
  | none =>
    cases value' with
    | none => exact ⟨rfl, (List.cons.inj h).2⟩
    | some m => exact absurd h (differ m _ _)
  | some n =>
    cases value' with
    | none => exact absurd h.symm (differ n _ _)
    | some m =>
      obtain ⟨rfl, behind⟩ := hv n rfl h
      exact ⟨rfl, behind⟩

theorem itemRows_unique {ns ms : List Node} (hn : ∀ n ∈ ns, n.Decodes) {level : Int} {close : Row}
    (hc : close.end? = some ',') {rest rest' : List Row}
    (h : itemRows level ns ++ close :: rest = itemRows level ms ++ close :: rest') :
    ns = ms ∧ rest = rest' := by
  have differ : ∀ n ns rows rows',
      close :: rows ≠ itemRows level (n :: ns) ++ rows' := by
    intro n ns rows rows'
    rw [itemRows, rows_eq]
    exact cons_ne_of_end? hc (end?_openingRow ..) (by decide) _ _
  induction ns generalizing ms with
  | nil =>
    cases ms with
    | nil => exact ⟨rfl, (List.cons.inj h).2⟩
    | cons m ms => exact absurd h (differ m ms _ _)
  | cons n ns ih =>
    cases ms with
    | nil => exact absurd h.symm (differ n ns _ _)
    | cons m ms =>
      obtain ⟨first, others⟩ := List.forall_mem_cons.mp hn
      rw [itemRows, itemRows, List.append_assoc, List.append_assoc] at h
      obtain ⟨rfl, behind⟩ := first h
      obtain ⟨rfl, last⟩ := ih others behind
      exact ⟨rfl, last⟩

theorem listRows_unique {ns ms : List Node} (hn : ∀ n ∈ ns, n.Decodes) {level : Int}
    {field : String} {rest rest' : List Row}
    (h : listRows level field ns ++ rest = listRows level field ms ++ rest') :
    ns = ms ∧ rest = rest' := by
  have differ : ∀ n ns rows rows',
      fieldRow level field "[]" :: rows ≠ listRows level field (n :: ns) ++ rows' := by
    intro n ns rows rows'
    rw [listRows_cons]
    have bracket := Row.end?_append (level.toNat + 1) field (t := "=[") rfl
    exact cons_ne_of_end? (end?_fieldRow ..) bracket (by decide) _ _
  cases ns with
  | nil =>
    cases ms with
    | nil => exact ⟨rfl, (List.cons.inj h).2⟩
    | cons m ms => exact absurd h (differ m ms _ _)
  | cons n ns =>
    cases ms with
    | nil => exact absurd h.symm (differ n ns _ _)
    | cons m ms =>
      rw [listRows_cons, listRows_cons, List.cons_append, List.cons_append, List.append_assoc,
        List.append_assoc] at h
      have bracket : (Row.mk (level.toNat + 1) "],").end? = some ',' :=
        show "],".toList.getLast? = some ',' by decide
      exact itemRows_unique hn bracket (List.cons.inj h).2

theorem decodes_of_inner {n : Node}
    (h : ∀ {m : Node} {level : Int} {rest rest' : List Row}, n.kind = m.kind →
      n.innerRows level ++ rest = m.innerRows level ++ rest' → n = m ∧ rest = rest') :
    n.Decodes := by
  intro m level start after rest rest' same
  rw [rows_eq, rows_eq, List.cons_append, List.cons_append, List.append_assoc,
    List.append_assoc] at same
  obtain ⟨opening, behind⟩ := List.cons.inj same
  -- the opening rows tell the kind, so only fields of nodes of one kind are compared
  obtain ⟨rfl, closing⟩ := h (openingRow_unique opening) behind
  exact ⟨rfl, (List.cons.inj closing).2⟩

theorem decodes (n : Node) : n.Decodes := by
  induction n using Node.induct with
  | program body ih =>
    apply decodes_of_inner
    intro m level rest rest' kind same
    cases m with
    | program body' =>
      obtain ⟨rfl, behind⟩ := listRows_unique ih same
      exact ⟨rfl, behind⟩
    | _ => cases kind
  | declaration name value constant ih =>
    apply decodes_of_inner
    intro m level rest rest' kind same
    cases m with
    | declaration name' value' constant' =>
      simp only [innerRows, List.cons_append, List.append_assoc] at same
      obtain ⟨first, fields⟩ := List.cons.inj same
      obtain ⟨rfl, last⟩ := optionRows_unique ih fields
      obtain ⟨flag, behind⟩ := List.cons.inj last
      rw [quoted_injective (fieldRow_unique first), flagText_injective (fieldRow_unique flag)]
      exact ⟨rfl, behind⟩
    | _ => cases kind
  | assignment target value iht ihv =>
    apply decodes_of_inner
    intro m level rest rest' kind same
    cases m with
    | assignment target' value' =>
      simp only [innerRows, List.append_assoc] at same
      obtain ⟨rfl, second⟩ := iht same
      obtain ⟨rfl, behind⟩ := ihv second
      exact ⟨rfl, behind⟩
    | _ => cases kind
  | binary left right operator ihl ihr =>
    apply decodes_of_inner
    intro m level rest rest' kind same
    cases m with
    | binary left' right' operator' =>
      simp only [innerRows, List.append_assoc] at same
      obtain ⟨rfl, second⟩ := ihl same
      obtain ⟨rfl, third⟩ := ihr second
      obtain ⟨last, behind⟩ := List.cons.inj third
      rw [quoted_injective (fieldRow_unique last)]
      exact ⟨rfl, behind⟩
    | _ => cases kind
  | identifier name =>
    apply decodes_of_inner
    intro m level rest rest' kind same
    cases m with
    | identifier name' =>
      obtain ⟨field, behind⟩ := List.cons.inj same
      rw [quoted_injective (fieldRow_unique field)]
      exact ⟨rfl, behind⟩
    | _ => cases kind
  | number value =>
    apply decodes_of_inner
    intro m level rest rest' kind same
    cases m with
    | number value' =>
      obtain ⟨field, behind⟩ := List.cons.inj same
      rw [Number.text_injective (fieldRow_unique field)]
      exact ⟨rfl, behind⟩
    | _ => cases kind
  | property key value ih =>
    apply decodes_of_inner
    intro m level rest rest' kind same
    cases m with
    | property key' value' =>
      obtain ⟨first, fields⟩ := List.cons.inj same
      obtain ⟨rfl, behind⟩ := optionRows_unique ih fields
      rw [quoted_injective (fieldRow_unique first)]
      exact ⟨rfl, behind⟩
    | _ => cases kind
  | object properties ih =>
    apply decodes_of_inner
    intro m level rest rest' kind same
    cases m with
    | object properties' =>
      obtain ⟨rfl, behind⟩ := listRows_unique ih same
      exact ⟨rfl, behind⟩
    | _ => cases kind

theorem display_unique (level : Int) (n m : Node) : n.display level = m.display level ↔ n = m := by
  constructor
  · intro same
    have rows := rows_of_display same
    rw [← List.append_nil (n.rows _ _ _), ← List.append_nil (m.rows _ _ _)] at rows
    exact (n.decodes rows).1
  · rintro rfl
    rfl

end Node

end LetLang
