import LetLang.Text.Template

namespace LetLang.Template

def Braceless (c : Char) : Prop := c ≠ '{' ∧ c ≠ '}'

instance : DecidablePred Braceless := fun _ => inferInstanceAs (Decidable (_ ∧ _))

theorem fillFrom_char {c : Char} (h : Braceless c) (args : List String) (numbering : Numbering)
    (rest : List Char) :
    fillFrom args numbering none (c :: rest) = (c :: ·) <$> fillFrom args numbering none rest := by
  obtain ⟨ho, hc⟩ := h
  rw [fillFrom] <;> simp_all

theorem fillFrom_slot (args : List String) (numbering : Numbering)
    (rest : List Char) : fillFrom args numbering none ('{' :: '}' :: rest) =
      match argument args numbering [] with
      | .ok (arg, after) => (arg.toList ++ ·) <$> fillFrom args after none rest
      | .error fault => .error fault := by
  rw [fillFrom]
  · rw [fillFrom]
    rfl
  · nofun
  · exact fun _ h => absurd (List.cons.inj h).1 (by decide)

def slots? : List Char → Option Nat
  | [] => some 0
  | '{' :: '}' :: rest => (slots? rest).map (· + 1)
  | c :: rest => if Braceless c then slots? rest else none

def numberingAfter : Nat → Numbering
  | 0 => .undecided
  | n + 1 => .plain (n + 1)

theorem argument_plain {args : List String} {n : Nat} {arg : String} (h : args[n]? = some arg) :
    argument args (numberingAfter n) [] = .ok (arg, numberingAfter (n + 1)) := by
  cases n with
  | zero => simp only [numberingAfter, argument, h]
  | succ n => simp only [numberingAfter, argument, h]

theorem fillFrom_ok {args : List String} (cs : List Char) (n : Nat) {m : Nat}
    (hs : slots? cs = some m) (hm : n + m ≤ args.length) :
    ∃ text, fillFrom args (numberingAfter n) none cs = .ok text := by
  induction cs using slots?.induct generalizing n m with
  | case1 => exact ⟨[], by rw [fillFrom]⟩
  | case2 rest ih =>
    simp only [slots?, Option.map_eq_some_iff] at hs
    obtain ⟨k, hk, rfl⟩ := hs
    have bound : n < args.length := by omega
    obtain ⟨text, ht⟩ := ih (n + 1) hk (by omega)
    rw [fillFrom_slot, argument_plain (List.getElem?_eq_getElem bound)]
    exact ⟨_, by simp only [ht]; rfl⟩
  | case3 c rest ho hc ih =>
    have hb : slots? rest = some m := by
      rw [slots?, if_pos hc] at hs
      · exact hs
      · exact ho
    obtain ⟨text, ht⟩ := ih n hb hm
    exact ⟨c :: text, by rw [fillFrom_char hc, ht]; rfl⟩
  | case4 c rest ho hc =>
    rw [slots?, if_neg hc] at hs
    · cases hs
    · exact ho

theorem fillFrom_append {front : List Char} (h : ∀ c ∈ front, Braceless c) (args : List String)
    (numbering : Numbering) (rest : List Char) :
    fillFrom args numbering none (front ++ rest) =
      (front ++ ·) <$> fillFrom args numbering none rest := by
  induction front with
  | nil => simp
  | cons c front ih =>
    obtain ⟨hc, hf⟩ := List.forall_mem_cons.mp h
    rw [List.cons_append, fillFrom_char hc, ih hf, ← comp_map]
    rfl

theorem fill_ok {cs : List Char} {args : List String} {m : Nat} (hs : slots? cs = some m)
    (hm : m ≤ args.length) : ∃ text, fill (String.ofList cs) args = .ok text := by
  have bound : 0 + m ≤ args.length := by omega
  obtain ⟨text, h⟩ := fillFrom_ok cs 0 hs bound
  rw [fill, String.toList_ofList]
  exact ⟨String.ofList text, congrArg (String.ofList <$> ·) h⟩

theorem fill_prefix {cs front rest : List Char} {text : String} {args : List String}
    (hs : cs = front ++ rest) (hf : ∀ c ∈ front, Braceless c)
    (h : fill (String.ofList cs) args = .ok text) :
    ∃ behind, text.toList = front ++ behind := by
  rw [fill, String.toList_ofList, hs, fillFrom_append hf] at h
  cases hr : fillFrom args .undecided none rest with
  | ok behind =>
    rw [hr] at h
    cases h
    exact ⟨behind, String.toList_ofList⟩
  | error fault =>
    rw [hr] at h
    cases h

end LetLang.Template
