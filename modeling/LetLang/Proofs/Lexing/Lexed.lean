import LetLang.Operator
import LetLang.Proofs.Grammar.Rules
import LetLang.Proofs.Lexing.Scans
import LetLang.Proofs.Number.Numerals

namespace LetLang.Token
open Grammar Numeral

def Operative (kind : TokenKind) : Prop :=
  kind = .plus ∨ kind = .minus ∨ kind = .star ∨ kind = .slash ∨ kind = .percent

structure Lexed (t : Token) : Prop where
  inner : t.kind ≠ .endOfInput
  number : t.kind = .number → ∃ x, Number.ofText? t.text = some x
  operator : Operative t.kind → ∃ f, Operator.operation? t.text = some f

theorem lexed_symbol {c : Char} {kind : TokenKind} (h : symbol? c = some kind) (p : Position) :
    Lexed ⟨kind, String.ofList [c], p⟩ := by
  unfold symbol? at h
  split at h <;> cases h <;> refine ⟨nofun, nofun, fun ho => ?_⟩
  all_goals
    first
    | exact ⟨_, rfl⟩
    | simp [Operative] at ho

theorem simple_numberTail {c : Char} (hc : c.isDigit) (rest : List Char) :
    Simple (c :: (numberTail rest).1) := by
  have digital : ∀ cs : List Char, Digital (cs.takeWhile Char.isDigit) :=
    fun cs d hd => List.all_eq_true.mp List.all_takeWhile d hd
  have front : Digital (c :: rest.takeWhile Char.isDigit) := .cons hc (digital rest)
  by_cases hp : ∃ us, rest.dropWhile Char.isDigit = '.' :: us
  · obtain ⟨us, hp⟩ := hp
    rw [numberTail_point hp]
    exact .pointed front nofun (digital us)
  · rw [numberTail_whole hp]
    exact .whole front nofun

theorem wordKind_cases (word : List Char) :
    wordKind word = .letWord ∨ wordKind word = .constWord ∨ wordKind word = .identifier := by
  unfold wordKind
  split
  · exact .inl rfl
  · split
    · exact .inr (.inl rfl)
    · exact .inr (.inr rfl)

theorem lexed_word (word : List Char) (p : Position) :
    Lexed ⟨wordKind word, String.ofList word, p⟩ := by
  rcases wordKind_cases word with h | h | h <;> rw [h] <;> exact ⟨nofun, nofun, nofun⟩

theorem Starts.lexed {c : Char} {rest : List Char} {l : Lexeme} (h : Starts c rest l)
    (p : Position) : Lexed ⟨l.kind, String.ofList l.text, p⟩ := by
  cases h with
  | symbol h => exact lexed_symbol h p
  | number _ h =>
    refine ⟨nofun, fun _ => ?_, nofun⟩
    have read := read?_simple (simple_numberTail h rest)
    rwa [← String.toList_ofList (l := c :: (numberTail rest).1)] at read
  | word _ _ _ => exact lexed_word _ p

theorem Scans.lexed {p q : Position} {cs : List Char} {ts : List Token} (h : Scans p cs ts q) :
    ∀ t ∈ ts, Lexed t := by
  induction h with
  | nil => nofun
  | space _ _ ih => exact ih
  | lexeme _ hl _ ih =>
    exact List.forall_mem_cons.mpr ⟨(lexeme?_eq_some_iff.mp hl).lexed _, ih⟩

theorem Scans.inner {p q : Position} {cs : List Char} {ts : List Token} (h : Scans p cs ts q) :
    Inner ts :=
  fun t ht => (h.lexed t ht).inner

end LetLang.Token
