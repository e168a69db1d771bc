import LetLang.Number.Decimal
import LetLang.Text.Blank
import LetLang.Text.Numeric

namespace LetLang.Numeral

def plain? (c : Char) : Option Char :=
  if c.toNat < 128 then some c
  else if isBlank c then some ' '
  else (decimalDigit? c).map Digits.char

def isPlainBlank (c : Char) : Bool := c == ' ' || (0x9 ≤ c.toNat && c.toNat ≤ 0xD)

def moreDigits : List Char → List Nat × List Char
  | [] => ([], [])
  | '_' :: c :: rest =>
    match Digits.ofChar? c with
    | some d => let (ds, after) := moreDigits rest; (d :: ds, after)
    | none => ([], '_' :: c :: rest)
  | c :: rest =>
    match Digits.ofChar? c with
    | some d => let (ds, after) := moreDigits rest; (d :: ds, after)
    | none => ([], c :: rest)

def digits : List Char → List Nat × List Char
  | [] => ([], [])
  | c :: rest =>
    match Digits.ofChar? c with
    | some d => let (ds, after) := moreDigits rest; (d :: ds, after)
    | none => ([], c :: rest)

def sign : List Char → Bool × List Char
  | '-' :: rest => (true, rest)
  | '+' :: rest => (false, rest)
  | cs => (false, cs)

def fraction : List Char → List Nat × List Char
  | '.' :: rest => digits rest
  | cs => ([], cs)

def exponent? : List Char → Option Int
  | [] => some 0
  | c :: rest =>
    if c = 'e' ∨ c = 'E' then
      let (negative, rest) := sign rest
      match digits rest with
      | ([], _) => none
      | (ds, []) => some (if negative then -(Digits.value ds : Int) else Digits.value ds)
      | _ => none
    else none

def decimal? (cs : List Char) : Option Decimal :=
  let (whole, rest) := digits cs
  let (part, rest) := fraction rest
  if whole.isEmpty && part.isEmpty then none
  else (exponent? rest).map fun e => ⟨Digits.value (whole ++ part), e - part.length⟩

def word? (negative : Bool) (cs : List Char) : Option Number :=
  let word := String.ofList (cs.map Char.toLower)
  if word = "inf" ∨ word = "infinity" then some (.infinite negative)
  else if word = "nan" then some .nan
  else none

def read? (cs : List Char) : Option Number := do
  let (negative, cs) := sign (trimBoth isPlainBlank (← cs.mapM plain?))
  match word? negative cs with
  | some x => return x
  | none => return .ofDecimal negative (← decimal? cs)

end LetLang.Numeral

namespace LetLang

def Number.ofText? (s : String) : Option Number := Numeral.read? s.toList

end LetLang
