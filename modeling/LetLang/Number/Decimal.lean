import LetLang.Number.Basic
import LetLang.Number.Digits

namespace LetLang

structure Decimal where
  coefficient : Nat
  exponent : Int
  deriving DecidableEq

namespace Decimal

def usefulExponent (d : Decimal) : Int :=
  max (-(d.coefficient.log2 + 401 : Nat)) (min d.exponent 400)

end Decimal

def Number.ofDecimal (negative : Bool) (d : Decimal) : Number :=
  match d.usefulExponent with
  | .ofNat e => ofQuotient negative (d.coefficient * Nat.pow 10 e * Magnitude.one) 1
  | .negSucc e => ofQuotient negative (d.coefficient * Magnitude.one) (Nat.pow 10 (e + 1))

end LetLang
