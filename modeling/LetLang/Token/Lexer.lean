import LetLang.Text.Identifier
import LetLang.Token

namespace LetLang

structure LexicalFault where
  char : Char
  position : Position
  deriving DecidableEq, Repr

namespace Token

def isSpace (c : Char) : Bool := c == ' ' || c == '\t' || c == '\r' || c == '\n'

def symbol? : Char → Option TokenKind
  | '=' => some .equals
  | '+' => some .plus
  | '-' => some .minus
  | '*' => some .star
  | '/' => some .slash
  | '%' => some .percent
  | '(' => some .openParen
  | ')' => some .closeParen
  | '{' => some .openBrace
  | '}' => some .closeBrace
  | ',' => some .comma
  | ':' => some .colon
  | ';' => some .semicolon
  | _ => none

def wordKind (word : List Char) : TokenKind :=
  if word = ['l', 'e', 't'] then .letWord
  else if word = ['c', 'o', 'n', 's', 't'] then .constWord
  else .identifier

def numberTail (cs : List Char) : List Char × List Char :=
  match cs.dropWhile Char.isDigit with
  | '.' :: rest => (cs.takeWhile Char.isDigit ++ '.' :: rest.takeWhile Char.isDigit,
      rest.dropWhile Char.isDigit)
  | rest => (cs.takeWhile Char.isDigit, rest)

structure Lexeme where
  kind : TokenKind
  text : List Char
  rest : List Char

def lexeme? (c : Char) (rest : List Char) : Option Lexeme :=
  match symbol? c with
  | some kind => some ⟨kind, [c], rest⟩
  | none =>
    if c.isDigit then some ⟨.number, c :: (numberTail rest).1, (numberTail rest).2⟩
    else if isIdentifierStart c then
      let word := c :: rest.takeWhile isIdentifierPart
      some ⟨wordKind word, word, rest.dropWhile isIdentifierPart⟩
    else none

theorem numberTail_append (cs : List Char) : (numberTail cs).1 ++ (numberTail cs).2 = cs := by
  unfold numberTail
  have h := List.takeWhile_append_dropWhile (p := Char.isDigit) (l := cs)
  split
  · rename_i rest heq
    rw [heq] at h
    simpa [List.takeWhile_append_dropWhile] using h
  · exact h

theorem lexeme?_append {c : Char} {rest : List Char} {l : Lexeme} (h : lexeme? c rest = some l) :
    l.text ++ l.rest = c :: rest := by
  unfold lexeme? at h
  split at h
  · cases h
    rfl
  · split at h
    · obtain rfl := Option.some.inj h
      simp [numberTail_append]
    · split at h
      · cases h
        simp [List.takeWhile_append_dropWhile]
      · cases h

theorem lexeme?_text_ne_nil {c : Char} {rest : List Char} {l : Lexeme}
    (h : lexeme? c rest = some l) : l.text ≠ [] := by
  unfold lexeme? at h
  split at h
  · cases h
    simp
  · split at h
    · cases h
      simp
    · split at h
      · cases h
        simp
      · cases h

theorem lexeme?_rest_length_le {c : Char} {rest : List Char} {l : Lexeme}
    (h : lexeme? c rest = some l) : l.rest.length ≤ rest.length := by
  have hl := congrArg List.length (lexeme?_append h)
  have hn := List.length_pos_iff.mpr (lexeme?_text_ne_nil h)
  simp only [List.length_append, List.length_cons] at hl
  omega

def scanFrom (position : Position) : List Char → Except LexicalFault (List Token)
  | [] => .ok [⟨.endOfInput, "", position⟩]
  | c :: rest =>
    if isSpace c then scanFrom (position.after c) rest
    else
      match h : lexeme? c rest with
      | some l =>
        have := lexeme?_rest_length_le h
        (⟨l.kind, String.ofList l.text, position⟩ :: ·) <$>
          scanFrom (position.afterAll l.text) l.rest
      | none => .error ⟨c, position⟩
termination_by cs => cs.length
decreasing_by
  · simp
  · simp only [List.length_cons]
    omega

def scan (source : String) : Except LexicalFault (List Token) :=
  scanFrom Position.start source.toList

end Token

end LetLang
