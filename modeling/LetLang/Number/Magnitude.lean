namespace LetLang

namespace Magnitude

def one : Nat := Nat.pow 2 1074

def limit : Nat := Nat.pow 2 2098

def Fits (units : Nat) : Prop := ∃ m e, m < Nat.pow 2 53 ∧ units = m * Nat.pow 2 e

end Magnitude

structure Magnitude where
  units : Nat
  fits : Magnitude.Fits units
  small : units < Magnitude.limit
  deriving DecidableEq

namespace Magnitude

theorem fits_zero : Fits 0 := ⟨0, 0, by decide, by decide⟩

theorem fits_mul_two_pow {m : Nat} (h : m ≤ Nat.pow 2 53) (e : Nat) :
    Fits (m * Nat.pow 2 e) := by
  rcases Nat.lt_or_eq_of_le h with h | h
  · exact ⟨m, e, h, rfl⟩
  · refine ⟨1, 53 + e, by decide, ?_⟩
    rw [h, Nat.one_mul]
    exact (Nat.pow_add 2 53 e).symm

def roundUnits (num den : Nat) : Nat :=
  let e := (num / den).log2 - 52
  let step := den * Nat.pow 2 e
  let below := num / step
  let cut := 2 * (num % step)
  (if step < cut ∨ (cut = step ∧ below % 2 = 1) then below + 1 else below) * Nat.pow 2 e

theorem div_step_lt (num den : Nat) :
    num / (den * Nat.pow 2 ((num / den).log2 - 52)) < Nat.pow 2 53 := by
  rw [← Nat.div_div_eq_div_mul]
  apply Nat.div_lt_of_lt_mul
  simp only [Nat.pow_eq, ← Nat.pow_add]
  exact Nat.lt_of_lt_of_le Nat.lt_log2_self (Nat.pow_le_pow_right (by decide) (by omega))

theorem fits_roundUnits (num den : Nat) : Fits (roundUnits num den) := by
  have h := div_step_lt num den
  dsimp only [roundUnits]
  split
  · exact fits_mul_two_pow h _
  · exact fits_mul_two_pow (Nat.le_of_lt h) _

def nearest? (num den : Nat) : Option Magnitude :=
  if h : roundUnits num den < limit then
    some ⟨roundUnits num den, fits_roundUnits num den, h⟩
  else
    none

theorem limit_pos : 0 < limit := by
  unfold limit
  generalize 2098 = e
  exact Nat.two_pow_pos e

def zero : Magnitude := ⟨0, fits_zero, limit_pos⟩

theorem two_pow_split {a b : Nat} (h : a ≤ b) :
    Nat.pow 2 b = Nat.pow 2 (b - a) * Nat.pow 2 a := by
  simp only [Nat.pow_eq, ← Nat.pow_add, Nat.sub_add_cancel h]

theorem fits_mod {x y : Nat} (hx : Fits x) (hy : Fits y) : Fits (x % y) := by
  obtain ⟨m, a, hm, rfl⟩ := hx
  obtain ⟨n, b, hn, rfl⟩ := hy
  rcases Nat.le_total a b with h | h
  · refine ⟨m % (n * Nat.pow 2 (b - a)), a, Nat.lt_of_le_of_lt (Nat.mod_le _ _) hm, ?_⟩
    rw [two_pow_split h, ← Nat.mul_assoc, Nat.mul_mod_mul_right]
  · rw [two_pow_split h, ← Nat.mul_assoc, Nat.mul_mod_mul_right]
    rcases Nat.eq_zero_or_pos n with hz | hp
    · subst hz
      exact ⟨m, a, hm, by rw [two_pow_split h, Nat.mod_zero, Nat.mul_assoc]⟩
    · exact ⟨_, b, Nat.lt_trans (Nat.mod_lt _ hp) hn, rfl⟩

def rem (x y : Magnitude) : Magnitude :=
  ⟨x.units % y.units, fits_mod x.fits y.fits, Nat.lt_of_le_of_lt (Nat.mod_le _ _) x.small⟩

@[simp] theorem units_rem (x y : Magnitude) : (x.rem y).units = x.units % y.units := rfl

end Magnitude

end LetLang
