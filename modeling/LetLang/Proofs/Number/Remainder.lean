import LetLang.Evaluation
import LetLang.Proofs.Number.Guards
import Mathlib.Data.Rat.Floor
import Mathlib.Data.Sign.Basic
import Mathlib.Tactic.Linarith

namespace LetLang

def truncated (t : ℚ) : ℤ := if t < 0 then ⌈t⌉ else ⌊t⌋

theorem truncated_neg (t : ℚ) : truncated (-t) = -truncated t := by
  rcases lt_trichotomy t 0 with h | rfl | h
  · rw [truncated, truncated, if_neg (by linarith), if_pos h, Int.floor_neg]
  · rfl
  · rw [truncated, truncated, if_pos (by linarith), if_neg (by linarith), Int.ceil_neg]

theorem truncated_div_nat (m n : ℕ) : truncated (m / n) = (m / n : ℕ) := by
  have positive : ¬ (m / n : ℚ) < 0 := not_lt.mpr (by positivity)
  rw [truncated, if_neg positive]
  exact Rat.floor_intCast_div_natCast m n

theorem fraction_truncated (t : ℚ) :
    |t - truncated t| < 1 ∧
      (t - truncated t = 0 ∨ SignType.sign (t - truncated t) = SignType.sign t) := by
  unfold truncated
  split
  · rename_i negative
    have above := Int.le_ceil t
    have below := Int.ceil_lt_add_one t
    refine ⟨abs_lt.mpr ⟨by linarith, by linarith⟩, ?_⟩
    rcases above.lt_or_eq with cut | whole
    · exact .inr (by rw [sign_neg negative, sign_neg (by linarith)])
    · exact .inl (by linarith)
  · rename_i nonnegative
    have below := Int.floor_le t
    have above := Int.lt_floor_add_one t
    refine ⟨abs_lt.mpr ⟨by linarith, by linarith⟩, ?_⟩
    rcases below.lt_or_eq with cut | whole
    · have positive : 0 < t := by
        have floor : (0 : ℚ) ≤ ⌊t⌋ := by exact_mod_cast Int.floor_nonneg.mpr (not_lt.mp nonnegative)
        linarith
      exact .inr (by rw [sign_pos positive, sign_pos (by linarith)])
    · exact .inl (by linarith)

def remainder (p q : ℚ) : ℚ := p - q * truncated (p / q)

theorem remainder_neg_left (p q : ℚ) : remainder (-p) q = -remainder p q := by
  rw [remainder, remainder, neg_div, truncated_neg, Int.cast_neg]
  ring

theorem remainder_neg_right (p q : ℚ) : remainder p (-q) = remainder p q := by
  rw [remainder, remainder, div_neg, truncated_neg, Int.cast_neg, neg_mul_neg]

theorem remainder_eq_mul (p : ℚ) {q : ℚ} (hq : q ≠ 0) :
    remainder p q = q * (p / q - truncated (p / q)) := by
  rw [remainder, mul_sub, mul_div_cancel₀ p hq]

theorem abs_remainder_lt (p : ℚ) {q : ℚ} (hq : q ≠ 0) : |remainder p q| < |q| := by
  rw [remainder_eq_mul p hq, abs_mul]
  exact mul_lt_of_lt_one_right (abs_pos.mpr hq) (fraction_truncated (p / q)).1

theorem sign_remainder (p : ℚ) {q : ℚ} (hq : q ≠ 0) :
    remainder p q = 0 ∨ SignType.sign (remainder p q) = SignType.sign p := by
  rw [remainder_eq_mul p hq]
  rcases (fraction_truncated (p / q)).2 with whole | same
  · exact .inl (by rw [whole, mul_zero])
  · exact .inr (by rw [sign_mul, same, ← sign_mul, mul_div_cancel₀ p hq])

namespace Magnitude

def exactValue (m : Magnitude) : ℚ := m.units / one

theorem one_ne_zero : (one : ℚ) ≠ 0 := Nat.cast_ne_zero.mpr (Nat.ne_of_gt one_pos)

theorem exactValue_rem (m n : Magnitude) :
    (m.rem n).exactValue = remainder m.exactValue n.exactValue := by
  have whole : (n.units * (m.units / n.units : ℕ) + (m.units % n.units : ℕ) : ℚ) = m.units := by
    exact_mod_cast Nat.div_add_mod m.units n.units
  have quotient : m.exactValue / n.exactValue = m.units / n.units :=
    div_div_div_cancel_right₀ one_ne_zero _ _
  rw [remainder, quotient, truncated_div_nat, exactValue, exactValue, exactValue, units_rem,
    ← whole, Int.cast_natCast]
  ring

theorem exactValue_eq_zero_iff {m : Magnitude} : m.exactValue = 0 ↔ m.units = 0 := by
  rw [exactValue, div_eq_zero_iff, or_iff_left one_ne_zero, Nat.cast_eq_zero]

theorem two_pow_lt_limit {e : Nat} (h : e < 2098) : Nat.pow 2 e < limit := by
  unfold limit
  generalize 2098 = limit at h ⊢
  exact Nat.pow_lt_pow_right (by decide) h

def twoPower (e : Nat) (h : e < 2098) : Magnitude where
  units := Nat.pow 2 e
  fits := ⟨1, e, by decide, (Nat.one_mul _).symm⟩
  small := two_pow_lt_limit h

def threeUnits : Magnitude where
  units := 3
  fits := ⟨3, 0, by decide, rfl⟩
  small := Nat.lt_trans (by decide : 3 < Nat.pow 2 2) (two_pow_lt_limit (by decide))

theorem rem_threeUnits {e : Nat} (h : e < 2098) (left : Nat.pow 2 e % 3 = 2) :
    (twoPower e h).rem threeUnits = twoPower 1 (by decide) := by
  rw [rem, mk.injEq]
  exact left

end Magnitude

namespace Number

def exactValue? : Number → Option ℚ
  | finite negative magnitude => some (signedUnits negative magnitude / Magnitude.one)
  | _ => none

theorem exactValue?_finite (negative : Bool) (m : Magnitude) :
    exactValue? (finite negative m) = some (if negative then -m.exactValue else m.exactValue) := by
  cases negative with
  | false =>
    have units : (signedUnits false m : ℚ) = m.units := Int.cast_natCast m.units
    rw [exactValue?, units, if_neg Bool.false_ne_true, Magnitude.exactValue]
  | true =>
    have units : (signedUnits true m : ℚ) = -m.units := by
      rw [signedUnits, if_pos rfl, Int.cast_neg, Int.cast_natCast]
    rw [exactValue?, units, if_pos rfl, Magnitude.exactValue, neg_div]

theorem exists_finite {x : Number} {p : ℚ} (h : x.exactValue? = some p) :
    ∃ negative m, x = finite negative m ∧ p = if negative then -m.exactValue else m.exactValue := by
  cases x with
  | nan | infinite _ => cases h
  | finite negative m =>
    rw [exactValue?_finite] at h
    exact ⟨negative, m, rfl, (Option.some.inj h).symm⟩

theorem exactValue?_mod {x y : Number} {p q : ℚ} (hx : x.exactValue? = some p)
    (hy : y.exactValue? = some q) (hq : q ≠ 0) :
    (x.mod y).exactValue? = some (remainder p q) := by
  obtain ⟨a, m, rfl, rfl⟩ := exists_finite hx
  obtain ⟨b, n, rfl, rfl⟩ := exists_finite hy
  have divisor : n.units ≠ 0 := by
    intro zero
    rw [← Magnitude.exactValue_eq_zero_iff] at zero
    simp [zero] at hq
  rw [mod, if_neg divisor, exactValue?_finite, Magnitude.exactValue_rem]
  cases a <;> cases b <;> simp [remainder_neg_left, remainder_neg_right]

theorem mod_infinite {x y : Number} {p : ℚ} (hx : x.exactValue? = some p) (hy : y.isInfinite) :
    x.mod y = x := by
  obtain ⟨a, m, rfl, rfl⟩ := exists_finite hx
  cases y with
  | infinite b => rfl
  | nan | finite _ _ => cases hy

theorem exactValue?_eq_zero_iff {y : Number} : y.exactValue? = some 0 ↔ y.isZero := by
  cases y with
  | nan | infinite _ => exact ⟨nofun, nofun⟩
  | finite b n => cases b <;> simp [exactValue?_finite, Magnitude.exactValue_eq_zero_iff, isZero]

theorem mod_eq_nan_iff {x y : Number} :
    x.mod y = nan ↔ y.isZero ∨ x.isInfinite ∨ x.isNan ∨ y.isNan := by
  cases x with
  | nan => simp [mod, isNan]
  | infinite a => cases y <;> simp [mod, isInfinite]
  | finite a m => cases y <;> simp [mod, isZero, isInfinite, isNan]

open Magnitude

theorem mod_truncates (x y : Number) :
    Evaluation.operate "%" (.number x) (.number y) = pure (.number (x.mod y)) ∧
    (∀ p q, x.exactValue? = some p → y.exactValue? = some q → q ≠ 0 →
      ∃ r, (x.mod y).exactValue? = some r ∧ r = p - q * truncated (p / q) ∧ |r| < |q| ∧
        (r = 0 ∨ SignType.sign r = SignType.sign p) ∧ ∃ k : ℤ, p - r = k * q) ∧
    (∀ p, x.exactValue? = some p → y.isInfinite → x.mod y = x) ∧
    (x.mod y = nan ↔ y.exactValue? = some 0 ∨ x.isInfinite ∨ x.isNan ∨ y.isNan) := by
  refine ⟨rfl, fun p q hx hy hq => ?_, fun p => mod_infinite, ?_⟩
  · refine ⟨remainder p q, exactValue?_mod hx hy hq, rfl, abs_remainder_lt p hq,
      sign_remainder p hq, truncated (p / q), ?_⟩
    rw [remainder]
    ring
  · rw [exactValue?_eq_zero_iff]
    exact mod_eq_nan_iff

theorem twoPower_mod_truncates :
    (finite true (twoPower 2097 (by decide))).mod (finite false threeUnits) =
      finite true (twoPower 1 (by decide)) ∧
    ∃ k : ℤ, -(twoPower 2097 (by decide)).exactValue + (twoPower 1 (by decide)).exactValue =
      k * threeUnits.exactValue := by
  have result : (finite true (twoPower 2097 (by decide))).mod (finite false threeUnits) =
      finite true (twoPower 1 (by decide)) := by
    rw [mod, if_neg (by decide), rem_threeUnits _ (by decide +kernel)]
  have divisor : threeUnits.exactValue ≠ 0 := mt Magnitude.exactValue_eq_zero_iff.mp (by decide)
  obtain ⟨_, truncates, _, _⟩ :=
    mod_truncates (finite true (twoPower 2097 (by decide))) (finite false threeUnits)
  obtain ⟨r, value, _, _, _, k, multiple⟩ :=
    truncates _ _ (exactValue?_finite _ _) (exactValue?_finite _ _) divisor
  rw [result, exactValue?_finite] at value
  refine ⟨result, k, ?_⟩
  rw [← Option.some.inj value] at multiple
  simpa using multiple

end Number

end LetLang
