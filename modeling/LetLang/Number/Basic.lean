import LetLang.Number.Magnitude

namespace LetLang

inductive Number where
  | nan
  | infinite (negative : Bool)
  | finite (negative : Bool) (magnitude : Magnitude)
  deriving DecidableEq

namespace Number

def zero : Number := finite false Magnitude.zero

def ofQuotient (negative : Bool) (num den : Nat) : Number :=
  match Magnitude.nearest? num den with
  | some magnitude => finite negative magnitude
  | none => infinite negative

def signedUnits (negative : Bool) (magnitude : Magnitude) : Int :=
  if negative then -(magnitude.units : Int) else magnitude.units

def sameValue : Number → Number → Bool
  | finite a x, finite b y => signedUnits a x == signedUnits b y
  | infinite a, infinite b => a == b
  | _, _ => false

def whole? : Number → Option Int
  | finite negative magnitude =>
    if magnitude.units % Magnitude.one = 0 then
      some (signedUnits negative magnitude / Magnitude.one)
    else
      none
  | _ => none

end Number

end LetLang
