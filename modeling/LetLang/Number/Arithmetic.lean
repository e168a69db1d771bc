import LetLang.Number.Basic

namespace LetLang.Number

def neg : Number → Number
  | nan => nan
  | infinite negative => infinite !negative
  | finite negative magnitude => finite (!negative) magnitude

def add : Number → Number → Number
  | nan, _ => nan
  | _, nan => nan
  | infinite a, infinite b => if a = b then infinite a else nan
  | infinite a, finite _ _ => infinite a
  | finite _ _, infinite b => infinite b
  | finite a x, finite b y =>
    let sum := signedUnits a x + signedUnits b y
    if sum = 0 then finite (a && b) Magnitude.zero else ofQuotient (decide (sum < 0)) sum.natAbs 1

def sub (x y : Number) : Number := add x (neg y)

def mul : Number → Number → Number
  | nan, _ => nan
  | _, nan => nan
  | infinite a, infinite b => infinite (a != b)
  | infinite a, finite b y => if y.units = 0 then nan else infinite (a != b)
  | finite a x, infinite b => if x.units = 0 then nan else infinite (a != b)
  | finite a x, finite b y => ofQuotient (a != b) (x.units * y.units) Magnitude.one

def div : Number → Number → Number
  | nan, _ => nan
  | _, nan => nan
  | infinite _, infinite _ => nan
  | infinite a, finite b _ => infinite (a != b)
  | finite a _, infinite b => finite (a != b) Magnitude.zero
  | finite a x, finite b y =>
    if y.units = 0 then
      if x.units = 0 then nan else infinite (a != b)
    else
      ofQuotient (a != b) (x.units * Magnitude.one) y.units

def mod : Number → Number → Number
  | nan, _ => nan
  | _, nan => nan
  | infinite _, _ => nan
  | finite a x, infinite _ => finite a x
  | finite a x, finite _ y => if y.units = 0 then nan else finite a (x.rem y)

end LetLang.Number
