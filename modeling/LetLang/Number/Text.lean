import LetLang.Number.Shortest

namespace LetLang

structure Layout where
  least : Int
  beyond : Int
  exponentDigits : Nat

namespace Layout

def exponentText (layout : Layout) (e : Int) : List Char :=
  let digits := Digits.text e.natAbs
  (if e < 0 then '-' else '+') ::
    (List.replicate (layout.exponentDigits - digits.length) '0' ++ digits)

def write (layout : Layout) (digits : List Char) (e : Int) : List Char :=
  if layout.least ≤ e ∧ e < layout.beyond then
    match e with
    | .negSucc zeros => '0' :: '.' :: (List.replicate zeros '0' ++ digits)
    | .ofNat e =>
      if digits.length ≤ e + 1 then
        digits ++ List.replicate (e + 1 - digits.length) '0' ++ ['.', '0']
      else
        digits.take (e + 1) ++ '.' :: digits.drop (e + 1)
  else
    match digits with
    | [] => []
    | [first] => first :: 'e' :: layout.exponentText e
    | first :: rest => first :: '.' :: (rest ++ 'e' :: layout.exponentText e)

end Layout

namespace Decimal

def significant (d : Decimal) : List Char :=
  let digits := Digits.text d.coefficient
  let kept := (digits.reverse.dropWhile (· == '0')).reverse
  if kept.isEmpty then ['0'] else kept

def leading (d : Decimal) : Int :=
  if d.coefficient = 0 then 0 else d.exponent + (Digits.text d.coefficient).length - 1

end Decimal

namespace Number

def layout : Layout := ⟨-4, 16, 2⟩

def signText (negative : Bool) : List Char := if negative then ['-'] else []

def chars : Number → List Char
  | nan => ['n', 'a', 'n']
  | infinite negative => signText negative ++ ['i', 'n', 'f']
  | finite negative magnitude =>
    let decimal := magnitude.shortest
    signText negative ++ layout.write decimal.significant decimal.leading

def text (x : Number) : String := String.ofList x.chars

end Number

end LetLang
