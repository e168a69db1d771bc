import LetLang.Token.Lexer

namespace LetLang.Token

theorem numberTail_point {cs us : List Char} (h : cs.dropWhile Char.isDigit = '.' :: us) :
    numberTail cs = (cs.takeWhile Char.isDigit ++ '.' :: us.takeWhile Char.isDigit,
      us.dropWhile Char.isDigit) := by
  simp only [numberTail, h]

theorem numberTail_whole {cs : List Char} (h : ¬ ∃ us, cs.dropWhile Char.isDigit = '.' :: us) :
    numberTail cs = (cs.takeWhile Char.isDigit, cs.dropWhile Char.isDigit) := by
  unfold numberTail
  split
  · rename_i us hu
    exact absurd ⟨us, hu⟩ h
  · rfl

inductive Starts (c : Char) (rest : List Char) : Lexeme → Prop where
  | symbol {kind : TokenKind} (h : symbol? c = some kind) : Starts c rest ⟨kind, [c], rest⟩
  | number (hs : symbol? c = none) (h : c.isDigit) :
      Starts c rest ⟨.number, c :: (numberTail rest).1, (numberTail rest).2⟩
  | word (hs : symbol? c = none) (hd : ¬ c.isDigit) (h : isIdentifierStart c) :
      Starts c rest ⟨wordKind (c :: rest.takeWhile isIdentifierPart),
        c :: rest.takeWhile isIdentifierPart, rest.dropWhile isIdentifierPart⟩

theorem lexeme?_eq_some_iff {c : Char} {rest : List Char} {l : Lexeme} :
    lexeme? c rest = some l ↔ Starts c rest l := by
  constructor
  · intro h
    unfold lexeme? at h
    split at h
    · rename_i hs
      cases h
      exact .symbol hs
    · rename_i hs
      split at h
      · rename_i hd
        cases h
        exact .number hs hd
      · rename_i hd
        split at h
        · rename_i hi
          cases h
          exact .word hs hd hi
        · cases h
  · intro h
    cases h with
    | symbol h => simp only [lexeme?, h]
    | number hs h => simp only [lexeme?, hs, h, if_true]
    | word hs hd h => simp only [lexeme?, hs, hd, h, if_true]; rfl

theorem lexeme?_eq_none_iff {c : Char} {rest : List Char} :
    lexeme? c rest = none ↔ symbol? c = none ∧ ¬ c.isDigit ∧ ¬ isIdentifierStart c := by
  unfold lexeme?
  split
  · simp_all
  · split
    · simp_all
    · split
      · simp_all
      · simp_all

theorem scanFrom_nil (p : Position) : scanFrom p [] = .ok [⟨.endOfInput, "", p⟩] := by
  rw [scanFrom]

theorem scanFrom_space {c : Char} (h : isSpace c) (p : Position) (rest : List Char) :
    scanFrom p (c :: rest) = scanFrom (p.after c) rest := by
  rw [scanFrom, if_pos h]

theorem scanFrom_lexeme {c : Char} {rest : List Char} {l : Lexeme} (h : ¬ isSpace c)
    (hl : lexeme? c rest = some l) (p : Position) :
    scanFrom p (c :: rest) =
      (⟨l.kind, String.ofList l.text, p⟩ :: ·) <$> scanFrom (p.afterAll l.text) l.rest := by
  rw [scanFrom, if_neg h]
  split <;> simp_all

theorem scanFrom_none {c : Char} {rest : List Char} (h : ¬ isSpace c) (hl : lexeme? c rest = none)
    (p : Position) : scanFrom p (c :: rest) = .error ⟨c, p⟩ := by
  rw [scanFrom, if_neg h]
  split <;> simp_all

inductive Scans : Position → List Char → List Token → Position → Prop where
  | nil {p : Position} : Scans p [] [] p
  | space {p q : Position} {c : Char} {rest : List Char} {ts : List Token} (h : isSpace c)
      (hs : Scans (p.after c) rest ts q) : Scans p (c :: rest) ts q
  | lexeme {p q : Position} {c : Char} {rest : List Char} {l : Lexeme} {ts : List Token}
      (h : ¬ isSpace c) (hl : lexeme? c rest = some l)
      (hs : Scans (p.afterAll l.text) l.rest ts q) :
      Scans p (c :: rest) (⟨l.kind, String.ofList l.text, p⟩ :: ts) q

theorem Scans.scanFrom_eq {p q : Position} {cs : List Char} {ts : List Token}
    (h : Scans p cs ts q) : scanFrom p cs = .ok (ts ++ [⟨.endOfInput, "", q⟩]) := by
  induction h with
  | nil => exact scanFrom_nil _
  | space h _ ih => rw [scanFrom_space h, ih]
  | lexeme h hl _ ih =>
    rw [scanFrom_lexeme h hl, ih]
    rfl

theorem exists_scans {p : Position} {cs : List Char} {tokens : List Token}
    (h : scanFrom p cs = .ok tokens) :
    ∃ ts q, Scans p cs ts q ∧ tokens = ts ++ [⟨.endOfInput, "", q⟩] := by
  match cs with
  | [] =>
    rw [scanFrom_nil] at h
    cases h
    exact ⟨[], p, .nil, rfl⟩
  | c :: rest =>
    by_cases hc : isSpace c
    · rw [scanFrom_space hc] at h
      obtain ⟨ts, q, hs, rfl⟩ := exists_scans h
      exact ⟨ts, q, .space hc hs, rfl⟩
    · rcases hl : lexeme? c rest with _ | l
      · rw [scanFrom_none hc hl] at h
        cases h
      · have shorter := lexeme?_rest_length_le hl
        rw [scanFrom_lexeme hc hl] at h
        rcases hr : scanFrom (p.afterAll l.text) l.rest with fault | us
        · rw [hr] at h
          cases h
        · rw [hr] at h
          cases h
          obtain ⟨ts, q, hs, rfl⟩ := exists_scans hr
          exact ⟨_ :: ts, q, .lexeme hc hl hs, rfl⟩
termination_by cs.length

end LetLang.Token
