import LetLang.Operator

namespace LetLang

namespace Magnitude

theorem fits_one : Fits one := by
  unfold one
  -- with the exponent a variable, no step evaluates the power
  generalize 1074 = e
  rw [← Nat.one_mul (Nat.pow 2 e)]
  exact fits_mul_two_pow (by decide) e

theorem one_lt_limit : one < limit := by
  have h : 1074 < 2098 := by decide
  unfold one limit
  generalize 1074 = a at h ⊢
  generalize 2098 = b at h ⊢
  exact Nat.pow_lt_pow_right (by decide) h

def unit : Magnitude := ⟨one, fits_one, one_lt_limit⟩

theorem one_pos : 0 < one := by
  unfold one
  generalize 1074 = e
  exact Nat.two_pow_pos e

theorem units_unit_ne_zero : unit.units ≠ 0 := by
  simp only [unit]
  exact Nat.ne_of_gt one_pos

end Magnitude

namespace Number

def isZero : Number → Bool
  | finite _ magnitude => magnitude.units == 0
  | _ => false

def isNan : Number → Bool
  | nan => true
  | _ => false

def isInfinite : Number → Bool
  | infinite _ => true
  | _ => false

def isNegative : Number → Bool
  | nan => false
  | infinite negative => negative
  | finite negative _ => negative

def copySign : Number → Number → Number
  | nan, _ => nan
  | infinite _, y => infinite y.isNegative
  | finite _ magnitude, y => finite y.isNegative magnitude

def one : Number := finite false Magnitude.unit

def guardedDiv (quotient : Number → Number → Option Number) (x y : Number) : Option Number :=
  if y.isZero then
    if x.isZero || x.isNan then some nan
    else some (((infinite false).copySign x).mul (one.copySign y))
  else quotient x y

def guardedMod (remainder : Number → Number → Option Number) (x y : Number) : Option Number :=
  if y.isZero || x.isInfinite then some nan else remainder x y

structure Primitives (quotient remainder : Number → Number → Option Number) : Prop where
  quotient : ∀ x y, y.isZero = false → quotient x y = some (x.div y)
  remainder : ∀ x y, y.isZero = false → x.isInfinite = false → remainder x y = some (x.mod y)

def checkedDiv (x y : Number) : Option Number := if y.isZero then none else some (x.div y)

def checkedMod (x y : Number) : Option Number :=
  if y.isZero || x.isInfinite then none else some (x.mod y)

theorem primitives_checked : Primitives checkedDiv checkedMod where
  quotient x y hy := by simp [checkedDiv, hy]
  remainder x y hy hx := by simp [checkedMod, hy, hx]

variable {quotient remainder : Number → Number → Option Number}

theorem div_of_isZero {x y : Number} (h : y.isZero) :
    x.div y = if x.isZero || x.isNan then nan
      else ((infinite false).copySign x).mul (one.copySign y) := by
  cases y with
  | nan => cases h
  | infinite b => cases h
  | finite b n =>
    have hn : n.units = 0 := by simpa [isZero] using h
    have hu := Magnitude.units_unit_ne_zero
    cases x with
    | nan => simp [div, isNan, isZero]
    | infinite a => simp [div, isNan, isZero, copySign, one, mul, isNegative, hu]
    | finite a m =>
      by_cases hm : m.units = 0
      · simp [div, isZero, hn, hm]
      · simp [div, isNan, isZero, copySign, one, mul, isNegative, hn, hm, hu]

theorem guardedDiv_eq (h : Primitives quotient remainder) (x y : Number) :
    guardedDiv quotient x y = some (x.div y) := by
  by_cases hy : y.isZero
  · rw [guardedDiv, if_pos hy, div_of_isZero hy]
    split <;> rfl
  · rw [guardedDiv, if_neg hy]
    exact h.quotient x y (by simpa using hy)

theorem mod_of_refused {x y : Number} (h : y.isZero || x.isInfinite) : x.mod y = nan := by
  cases x with
  | nan => cases y <;> rfl
  | infinite a => cases y <;> rfl
  | finite a m =>
    cases y with
    | nan => rfl
    | infinite b => simp [isZero, isInfinite] at h
    | finite b n =>
      have hn : n.units = 0 := by simpa [isZero, isInfinite] using h
      simp [mod, hn]

theorem guardedMod_eq (h : Primitives quotient remainder) (x y : Number) :
    guardedMod remainder x y = some (x.mod y) := by
  by_cases hr : y.isZero || x.isInfinite
  · rw [guardedMod, if_pos hr, mod_of_refused hr]
  · rw [guardedMod, if_neg hr]
    simp only [Bool.or_eq_true, not_or, Bool.not_eq_true] at hr
    exact h.remainder x y hr.1 hr.2

end Number

namespace Operator

def guarded? (quotient remainder : Number → Number → Option Number) (operator : String) :
    Option (Number → Number → Option Number) :=
  if operator = "+" then some fun x y => some (x.add y)
  else if operator = "-" then some fun x y => some (x.sub y)
  else if operator = "*" then some fun x y => some (x.mul y)
  else if operator = "/" then some (Number.guardedDiv quotient)
  else if operator = "%" then some (Number.guardedMod remainder)
  else none

theorem guarded?_eq {quotient remainder : Number → Number → Option Number}
    (h : Number.Primitives quotient remainder) (operator : String) :
    guarded? quotient remainder operator =
      (operation? operator).map fun f x y => some (f x y) := by
  have hd : Number.guardedDiv quotient = fun x y => some (x.div y) :=
    funext fun x => funext (Number.guardedDiv_eq h x)
  have hm : Number.guardedMod remainder = fun x y => some (x.mod y) :=
    funext fun x => funext (Number.guardedMod_eq h x)
  unfold guarded? operation?
  rw [hd, hm]
  repeat' split
  all_goals rfl

end Operator

end LetLang
