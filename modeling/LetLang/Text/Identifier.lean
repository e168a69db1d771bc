import LetLang.Text.Letter
import LetLang.Text.Numeric

namespace LetLang

def isIdentifierStart (c : Char) : Bool := isLetter c || c == '_'

def isIdentifierPart (c : Char) : Bool := isLetter c || isNumeric c || c == '_'

theorem isIdentifierPart_of_start {c : Char} (h : isIdentifierStart c) : isIdentifierPart c := by
  simp only [isIdentifierStart, Bool.or_eq_true] at h
  simp only [isIdentifierPart, Bool.or_eq_true]
  exact h.elim (fun h => Or.inl (Or.inl h)) Or.inr

end LetLang
