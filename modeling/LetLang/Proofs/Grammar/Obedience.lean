import LetLang.Proofs.Grammar.Reading
import LetLang.Proofs.Grammar.Rules

namespace LetLang.Grammar
open LetLang.Parser

variable {α β : Type} {D : List Token → α → Prop} {E : List Token → β → Prop} {terminator : Token}

def Viable (D : List Token → α → Prop) (ts : List Token) : Prop := ∃ us value, D (ts ++ us) value

theorem Viable.of_phrase {ts : List Token} {value : α} (h : D ts value) : Viable D ts :=
  ⟨[], value, by simpa using h⟩

theorem Viable.of_append {ts us : List Token} (h : Viable D (ts ++ us)) : Viable D ts := by
  obtain ⟨vs, value, h⟩ := h
  exact ⟨us ++ vs, value, by simpa using h⟩

theorem Viable.nil {ts : List Token} (h : Viable D ts) : Viable D [] := by
  obtain ⟨us, value, h⟩ := h
  exact ⟨ts ++ us, value, h⟩

theorem Viable.lift {p ts : List Token} (h : Viable D ts)
    (hd : ∀ us value, D us value → Viable E (p ++ us)) : Viable E (p ++ ts) := by
  obtain ⟨us, value, h⟩ := h
  have hv := hd _ _ h
  rw [← List.append_assoc] at hv
  exact hv.of_append

def Native : Complaint → Prop
  | .asked _ _ => False
  | _ => True

def Explains (D : List Token → α → Prop) (terminator : Token) (ts rest : List Token) :
    ParseFault → Prop
  | .unterminated => False
  | .unexpected c found => Native c ∧ found = rest.head?.getD terminator ∧ Viable D ts ∧
      ∀ t, c.expected = some t.kind → Viable D (ts ++ [t])
  | .unreadable numeral => ∃ t ∈ ts, t.kind = .number ∧ t.text = numeral ∧
      Number.ofText? numeral = none

theorem Explains.of_unexpected {ts rest : List Token} {c : Complaint} {found : Token}
    (hc : Native c) (hf : found = rest.head?.getD terminator) (hd : Viable D ts)
    (he : ∀ t, c.expected = some t.kind → Viable D (ts ++ [t])) :
    Explains D terminator ts rest (.unexpected c found) :=
  ⟨hc, hf, hd, he⟩

theorem Explains.lift {p ts rest : List Token} {fault : ParseFault}
    (h : Explains D terminator ts rest fault)
    (hd : ∀ us value, D us value → Viable E (p ++ us)) :
    Explains E terminator (p ++ ts) rest fault := by
  cases fault with
  | unterminated => exact h
  | unexpected c found =>
    obtain ⟨hn, hf, hv, he⟩ := h
    refine ⟨hn, hf, hv.lift hd, fun t ht => ?_⟩
    rw [List.append_assoc]
    exact (he t ht).lift hd
  | unreadable numeral =>
    obtain ⟨t, ht, h⟩ := h
    exact ⟨t, List.mem_append_right p ht, h⟩

inductive Obeys (D : List Token → α → Prop) (terminator : Token) (R : List Token → Reading α)
    (tokens : List Token) : Prop where
  | reads {p rest : List Token} {value : α} (split : tokens = p ++ rest)
      (decided : ∀ us, us.head? = rest.head? → R (p ++ us) = (.ok value, us))
      (phrase : D p value)
  | fails {p rest : List Token} {fault : ParseFault} (split : tokens = p ++ rest)
      (decided : ∀ us, us.head? = rest.head? → R (p ++ us) = (.error fault, us))
      (explained : Explains D terminator p rest fault)

namespace Obeys

variable {R S : List Token → Reading α} {g : α → List Token → Reading β} {tokens : List Token}

theorem of_ok (h : Obeys D terminator R tokens) {value : α} {rest : List Token}
    (hr : R tokens = (.ok value, rest)) : ∃ ts, tokens = ts ++ rest ∧ D ts value := by
  cases h with
  | @reads ts rest' value' split decided phrase =>
    subst split
    rw [decided rest' rfl] at hr
    cases hr
    exact ⟨ts, rfl, phrase⟩
  | @fails ts rest' fault split decided _ =>
    subst split
    rw [decided rest' rfl] at hr
    cases hr

theorem of_error (h : Obeys D terminator R tokens) {fault : ParseFault} {rest : List Token}
    (hr : R tokens = (.error fault, rest)) :
    ∃ ts, tokens = ts ++ rest ∧ Explains D terminator ts rest fault ∧
      ∀ us, us.head? = rest.head? → R (ts ++ us) = (.error fault, us) := by
  cases h with
  | @reads ts rest' value' split decided phrase =>
    subst split
    rw [decided rest' rfl] at hr
    cases hr
  | @fails ts rest' fault' split decided explained =>
    subst split
    have hd := decided rest' rfl
    rw [hr] at hd
    cases hd
    exact ⟨ts, rfl, explained, decided⟩

theorem congr (hr : ∀ us, us.head? = tokens.head? → R us = S us) (h : Obeys D terminator S tokens) :
    Obeys D terminator R tokens := by
  have step : ∀ p rest, tokens = p ++ rest → ∀ us, us.head? = rest.head? →
      R (p ++ us) = S (p ++ us) := by
    intro p rest hp us hu
    exact hr _ (by simp [hp, List.head?_append, hu])
  cases h with
  | reads split decided phrase =>
    exact .reads split (fun us hu => (step _ _ split us hu).trans (decided us hu)) phrase
  | fails split decided explained =>
    exact .fails split (fun us hu => (step _ _ split us hu).trans (decided us hu)) explained

theorem congr_cons {t : Token} (hr : ∀ us, R (t :: us) = S (t :: us))
    (h : Obeys D terminator S (t :: tokens)) : Obeys D terminator R (t :: tokens) := by
  refine .congr (fun us hu => ?_) h
  obtain ⟨us, rfl⟩ := List.head?_eq_some_iff.mp hu
  exact hr us

theorem mono {E : List Token → α → Prop} (h : Obeys D terminator R tokens)
    (hd : ∀ ts value, D ts value → E ts value) : Obeys E terminator R tokens := by
  cases h with
  | reads split decided phrase => exact .reads split decided (hd _ _ phrase)
  | fails split decided explained =>
    exact .fails split decided
      (explained.lift (p := []) fun us value h => .of_phrase (hd us value h))

theorem stays {value : α} (h : ∀ us, us.head? = tokens.head? → R us = (.ok value, us))
    (hd : D [] value) : Obeys D terminator R tokens :=
  .reads (p := []) rfl h hd

theorem stays_nil {value : α} (h : R [] = (.ok value, [])) (hd : D [] value) :
    Obeys D terminator R [] := by
  refine .stays (fun us hu => ?_) hd
  rw [List.head?_eq_none_iff.mp hu]
  exact h

theorem stays_cons {t : Token} {value : α} (h : ∀ us, R (t :: us) = (.ok value, t :: us))
    (hd : D [] value) : Obeys D terminator R (t :: tokens) := by
  refine .stays (fun us hu => ?_) hd
  obtain ⟨us, rfl⟩ := List.head?_eq_some_iff.mp hu
  exact h us

theorem stuck_nil {c : Complaint} (h : R [] = (.error (.unexpected c terminator), []))
    (hc : Native c) (hd : Viable D []) (he : ∀ t, c.expected = some t.kind → Viable D [t]) :
    Obeys D terminator R [] := by
  refine .fails (p := []) rfl (fun us hu => ?_) (.of_unexpected hc rfl hd he)
  rw [List.head?_eq_none_iff.mp hu]
  exact h

theorem stuck_cons {c : Complaint} {t : Token}
    (h : ∀ us, R (t :: us) = (.error (.unexpected c t), t :: us))
    (hc : Native c) (hd : Viable D []) (he : ∀ t, c.expected = some t.kind → Viable D [t]) :
    Obeys D terminator R (t :: tokens) := by
  refine .fails (p := []) rfl (fun us hu => ?_) (.of_unexpected hc rfl hd he)
  obtain ⟨us, rfl⟩ := List.head?_eq_some_iff.mp hu
  exact h us

theorem eats {t : Token} (h : ∀ us, R (t :: us) = S us)
    (hs : Obeys (fun us value => D (t :: us) value) terminator S tokens) :
    Obeys D terminator R (t :: tokens) := by
  cases hs with
  | @reads ts rest value split decided phrase =>
    exact .reads (p := t :: ts) (by simp [split]) (fun us hu => (h _).trans (decided us hu)) phrase
  | @fails ts rest fault split decided explained =>
    refine .fails (p := t :: ts) (by simp [split]) (fun us hu => (h _).trans (decided us hu)) ?_
    exact explained.lift (p := [t]) fun us value h => .of_phrase h

theorem bind (h : Obeys D terminator R tokens)
    (hg : ∀ ts rest value, tokens = ts ++ rest → D ts value →
      Obeys (fun us w => E (ts ++ us) w) terminator (g value) rest)
    (hv : ∀ ts value, D ts value → Viable E ts) :
    Obeys E terminator (fun ts => (R ts).bind g) tokens := by
  cases h with
  | fails split decided explained =>
    refine .fails split (fun us hu => ?_) (explained.lift (p := []) hv)
    simp only [decided us hu, Reading.bind_error]
  | @reads ts rest value split decided phrase =>
    -- where `g` stops decides what stands behind the phrase of `R`, also if `g` consumes nothing
    have step : ∀ us vs, us ++ vs = rest → ∀ ws, ws.head? = vs.head? →
        (R (ts ++ us ++ ws)).bind g = g value (us ++ ws) := by
      intro us vs hr ws hw
      rw [List.append_assoc, decided (us ++ ws) (by simp [← hr, List.head?_append, hw]),
        Reading.bind_ok]
    cases hg ts rest value split phrase with
    | @reads us vs w hr after hw =>
      exact .reads (p := ts ++ us) (by simp [split, hr])
        (fun ws hs => (step us vs hr.symm ws hs).trans (after ws hs)) hw
    | @fails us vs fault hr after explained =>
      refine .fails (p := ts ++ us) (by simp [split, hr])
        (fun ws hs => (step us vs hr.symm ws hs).trans (after ws hs)) ?_
      exact explained.lift fun us value h => .of_phrase h

theorem map {f : α → β} (h : Obeys D terminator R tokens)
    (hf : ∀ ts value, D ts value → E ts (f value)) :
    Obeys E terminator (fun ts => (R ts).map f) tokens :=
  h.bind (fun ts rest value _ hd => .stays (fun _ _ => rfl) (by simpa using hf ts value hd))
    fun ts value hd => .of_phrase (hf ts value hd)

end Obeys

end LetLang.Grammar
