import LetLang.Proofs.Lexing.Lexed
import Mathlib.Data.List.TakeWhile

namespace LetLang.Token
open Numeral

inductive Spells : List Char → TokenKind → Prop where
  | symbol {c : Char} {kind : TokenKind} (h : symbol? c = some kind) : Spells [c] kind
  | number {cs : List Char} (h : Simple cs) : Spells cs .number
  | letWord : Spells ['l', 'e', 't'] .letWord
  | constWord : Spells ['c', 'o', 'n', 's', 't'] .constWord
  | identifier {c : Char} {cs : List Char} (hc : isIdentifierStart c)
      (hcs : ∀ d ∈ cs, isIdentifierPart d) (hl : c :: cs ≠ ['l', 'e', 't'])
      (hk : c :: cs ≠ ['c', 'o', 'n', 's', 't']) : Spells (c :: cs) .identifier

theorem char_forall_ascii {p : Char → Prop} (h : ∀ n < 128, p (Char.ofNat n)) {c : Char}
    (hc : c.toNat < 128) : p c := by
  have hp := h c.toNat hc
  rwa [Char.ofNat_toNat] at hp

theorem digit_lt {c : Char} (h : c.isDigit) : c.toNat < 128 :=
  Nat.lt_of_le_of_lt (toNat_of_isDigit h).2 (by decide)

theorem symbol?_of_isDigit {c : Char} (h : c.isDigit) : symbol? c = none := by
  have ascii : ∀ n < 128, (Char.ofNat n).isDigit → symbol? (Char.ofNat n) = none := by decide
  exact char_forall_ascii (p := fun c => c.isDigit → symbol? c = none) ascii (digit_lt h) h

theorem not_isIdentifierStart_of_isDigit {c : Char} (h : c.isDigit) :
    isIdentifierStart c = false := by
  have ascii : ∀ n < 128, (Char.ofNat n).isDigit → isIdentifierStart (Char.ofNat n) = false := by
    decide
  exact char_forall_ascii (p := fun c => c.isDigit → isIdentifierStart c = false) ascii
    (digit_lt h) h

theorem not_isIdentifierStart_of_symbol {c : Char} {kind : TokenKind} (h : symbol? c = some kind) :
    isIdentifierStart c = false := by
  unfold symbol? at h
  split at h
  case h_14 => cases h
  all_goals rfl

theorem Spells.text_ne_nil {cs : List Char} {kind : TokenKind} (h : Spells cs kind) : cs ≠ [] := by
  cases h with
  | number h =>
    obtain ⟨c, rest, rfl, _⟩ := h.head
    exact List.cons_ne_nil c rest
  | _ => exact List.cons_ne_nil _ _

theorem Spells.of_symbol {c : Char} {cs : List Char} {kind kind' : TokenKind}
    (hc : symbol? c = some kind) (h : Spells (c :: cs) kind') : cs = [] ∧ kind' = kind := by
  have noStart := not_isIdentifierStart_of_symbol hc
  cases h with
  | symbol h => exact ⟨rfl, Option.some.inj (h.symm.trans hc)⟩
  | number h =>
    obtain ⟨d, rest, hd, digit⟩ := h.head
    cases hd
    rw [symbol?_of_isDigit digit] at hc
    cases hc
  | letWord => cases hc
  | constWord => cases hc
  | identifier h _ _ _ =>
    rw [noStart] at h
    cases h

theorem Spells.of_digit {c : Char} {cs : List Char} {kind : TokenKind} (hc : c.isDigit)
    (h : Spells (c :: cs) kind) : Simple (c :: cs) ∧ kind = .number := by
  have noStart := not_isIdentifierStart_of_isDigit hc
  cases h with
  | symbol h =>
    rw [symbol?_of_isDigit hc] at h
    cases h
  | number h => exact ⟨h, rfl⟩
  | letWord => cases hc
  | constWord => cases hc
  | identifier h _ _ _ =>
    rw [noStart] at h
    cases h

theorem Spells.of_start {c : Char} {cs : List Char} {kind : TokenKind} (hc : isIdentifierStart c)
    (h : Spells (c :: cs) kind) :
    (∀ d ∈ cs, isIdentifierPart d) ∧ kind = wordKind (c :: cs) := by
  cases h with
  | symbol h =>
    rw [not_isIdentifierStart_of_symbol h] at hc
    cases hc
  | number h =>
    obtain ⟨d, rest, hd, digit⟩ := h.head
    cases hd
    rw [not_isIdentifierStart_of_isDigit digit] at hc
    cases hc
  | letWord => exact ⟨List.all_eq_true.mp rfl, rfl⟩
  | constWord => exact ⟨List.all_eq_true.mp rfl, rfl⟩
  | identifier _ hcs hl hk => exact ⟨hcs, by rw [wordKind, if_neg hl, if_neg hk]⟩

theorem Spells.first {c : Char} {cs : List Char} {kind : TokenKind} (h : Spells (c :: cs) kind) :
    (∃ kind, symbol? c = some kind) ∨ c.isDigit ∨ isIdentifierStart c := by
  cases h with
  | symbol h => exact .inl ⟨_, h⟩
  | number h =>
    obtain ⟨d, rest, hd, digit⟩ := h.head
    cases hd
    exact .inr (.inl digit)
  | letWord => exact .inr (.inr rfl)
  | constWord => exact .inr (.inr rfl)
  | identifier h _ _ _ => exact .inr (.inr h)

theorem Spells.unique {cs : List Char} {kind kind' : TokenKind} (h : Spells cs kind)
    (h' : Spells cs kind') : kind = kind' := by
  obtain ⟨c, cs, rfl⟩ := List.exists_cons_of_ne_nil h.text_ne_nil
  rcases h.first with ⟨symbol, hc⟩ | hc | hc
  · rw [(h.of_symbol hc).2, (h'.of_symbol hc).2]
  · rw [(h.of_digit hc).2, (h'.of_digit hc).2]
  · rw [(h.of_start hc).2, (h'.of_start hc).2]

theorem isSpace_iff {c : Char} : isSpace c ↔ c = ' ' ∨ c = '\t' ∨ c = '\r' ∨ c = '\n' := by
  simp only [isSpace, Bool.or_eq_true, beq_iff_eq, or_assoc]

theorem not_isSpace_of_part {c : Char} (h : isIdentifierPart c) : ¬ isSpace c := by
  intro space
  rcases isSpace_iff.mp space with rfl | rfl | rfl | rfl <;> exact absurd h (by decide)

theorem not_isSpace_of_symbol {c : Char} {kind : TokenKind} (h : symbol? c = some kind) :
    ¬ isSpace c := by
  intro space
  rcases isSpace_iff.mp space with rfl | rfl | rfl | rfl <;> cases h

theorem not_isSpace_of_digit {c : Char} (h : c.isDigit) : ¬ isSpace c := by
  intro space
  rcases isSpace_iff.mp space with rfl | rfl | rfl | rfl <;> cases h

theorem Spells.no_space {cs : List Char} {kind : TokenKind} (h : Spells cs kind) :
    ∀ c ∈ cs, ¬ isSpace c := by
  intro c hc
  cases h with
  | symbol h =>
    rw [List.mem_singleton.mp hc]
    exact not_isSpace_of_symbol h
  | number h =>
    rcases h.mem hc with digit | rfl
    · exact not_isSpace_of_digit digit
    · decide
  | letWord | constWord => exact not_isSpace_of_part (List.all_eq_true.mp rfl c hc)
  | identifier h hcs _ _ =>
    rcases List.mem_cons.mp hc with rfl | hc
    · exact not_isSpace_of_part (isIdentifierPart_of_start h)
    · exact not_isSpace_of_part (hcs c hc)

theorem spells_word {c : Char} {cs : List Char} (hc : isIdentifierStart c)
    (hcs : ∀ d ∈ cs, isIdentifierPart d) : Spells (c :: cs) (wordKind (c :: cs)) := by
  by_cases hl : c :: cs = ['l', 'e', 't']
  · rw [hl]
    exact .letWord
  · by_cases hk : c :: cs = ['c', 'o', 'n', 's', 't']
    · rw [hk]
      exact .constWord
    · rw [wordKind, if_neg hl, if_neg hk]
      exact .identifier hc hcs hl hk

theorem Starts.spells {c : Char} {rest : List Char} {l : Lexeme} (h : Starts c rest l) :
    Spells l.text l.kind := by
  cases h with
  | symbol h => exact .symbol h
  | number _ h => exact .number (simple_numberTail h rest)
  | word _ _ h => exact spells_word h fun d hd => List.mem_takeWhile_imp hd

theorem numberTail_stops {c d : Char} {rest : List Char} (h : (numberTail rest).2.head? = some d) :
    ¬ Simple (c :: (numberTail rest).1 ++ [d]) := by
  intro simple
  have digitOrPoint := simple.mem (List.mem_append_right _ (List.mem_singleton_self d))
  have noDigit : ∀ cs : List Char, (cs.dropWhile Char.isDigit).head? = some d → ¬ d.isDigit :=
    fun cs hd => by simpa [hd] using List.head?_dropWhile_not Char.isDigit cs
  by_cases hp : ∃ us, rest.dropWhile Char.isDigit = '.' :: us
  · obtain ⟨us, hp⟩ := hp
    rw [numberTail_point hp] at h simple
    have point : d = '.' := digitOrPoint.resolve_left (noDigit us h)
    have twice := simple.count_point_le
    rw [point] at twice
    simp only [List.cons_append, List.append_assoc, List.count_cons, List.count_append,
      beq_self_eq_true, if_true] at twice
    omega
  · rw [numberTail_whole hp] at h
    have point : d = '.' := digitOrPoint.resolve_left (noDigit rest h)
    obtain ⟨us, hu⟩ := List.head?_eq_some_iff.mp h
    exact hp ⟨us, point ▸ hu⟩

theorem Starts.maximal {c d : Char} {rest : List Char} {l : Lexeme} (h : Starts c rest l)
    (hd : l.rest.head? = some d) (kind : TokenKind) : ¬ Spells (l.text ++ [d]) kind := by
  intro longer
  cases h with
  | symbol h => exact absurd (longer.of_symbol h).1 (List.cons_ne_nil d [])
  | number _ h => exact numberTail_stops hd (longer.of_digit h).1
  | word _ _ h =>
    have part := (longer.of_start h).1 d (List.mem_append_right _ (List.mem_singleton_self d))
    have stopped := List.head?_dropWhile_not isIdentifierPart rest
    rw [hd] at stopped
    exact absurd part (by simpa using stopped)

end LetLang.Token
