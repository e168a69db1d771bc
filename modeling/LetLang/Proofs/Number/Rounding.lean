import LetLang.Number.Decimal

namespace LetLang

namespace Magnitude

theorem ten_pow_pos (n : Nat) : 0 < Nat.pow 10 n := Nat.pow_pos (by decide)

theorem Fits.step_dvd {units : Nat} (h : Fits units) : Nat.pow 2 (units.log2 - 52) ∣ units := by
  obtain ⟨m, e, hm, rfl⟩ := h
  rcases Nat.eq_zero_or_pos m with rfl | positive
  · rw [Nat.zero_mul]
    exact Nat.dvd_zero _
  · have nonzero : m * Nat.pow 2 e ≠ 0 := Nat.ne_of_gt (Nat.mul_pos positive (Nat.two_pow_pos e))
    have bits : (m * Nat.pow 2 e).log2 < 53 + e := by
      rw [Nat.log2_lt nonzero, Nat.pow_add]
      exact Nat.mul_lt_mul_of_pos_right hm (Nat.two_pow_pos e)
    have short : (m * Nat.pow 2 e).log2 - 52 ≤ e := by omega
    exact Nat.dvd_trans (Nat.pow_dvd_pow 2 short) (Nat.dvd_mul_left _ _)

theorem roundUnits_of_fits {units : Nat} (h : Fits units) : roundUnits units 1 = units := by
  have exact := h.step_dvd
  have positive : 0 < Nat.pow 2 (units.log2 - 52) := Nat.two_pow_pos _
  simp only [roundUnits, Nat.div_one, Nat.one_mul, Nat.mod_eq_zero_of_dvd exact, Nat.mul_zero]
  rw [if_neg (by omega), Nat.div_mul_cancel exact]

theorem roundUnits_mul {k : Nat} (hk : 0 < k) (num den : Nat) :
    roundUnits (num * k) (den * k) = roundUnits num den := by
  have quotient : num * k / (den * k) = num / den := Nat.mul_div_mul_right num den hk
  simp only [roundUnits, quotient]
  generalize Nat.pow 2 ((num / den).log2 - 52) = p
  have step : den * k * p = den * p * k := by rw [Nat.mul_assoc, Nat.mul_comm k p, Nat.mul_assoc]
  rw [step, Nat.mul_div_mul_right _ _ hk, Nat.mul_mod_mul_right, ← Nat.mul_assoc 2]
  simp only [Nat.mul_lt_mul_right hk, Nat.mul_left_inj (Nat.ne_of_gt hk)]

theorem nearest?_of_roundUnits {num den : Nat} {m : Magnitude} (h : roundUnits num den = m.units) :
    nearest? num den = some m := by
  have small : roundUnits num den < limit := by
    rw [h]
    exact m.small
  rw [nearest?, dif_pos small]
  obtain ⟨units, _, _⟩ := m
  subst h
  rfl

theorem nearest?_congr {num den num' den' : Nat}
    (h : roundUnits num den = roundUnits num' den') : nearest? num den = nearest? num' den' := by
  cases hn : nearest? num' den' with
  | none =>
    simp only [nearest?, dite_eq_right_iff, reduceCtorEq, imp_false] at hn ⊢
    rwa [h]
  | some m =>
    rw [nearest?] at hn
    split at hn
    · cases hn
      exact nearest?_of_roundUnits h
    · cases hn

end Magnitude

namespace Number

theorem ofQuotient_mul {k : Nat} (hk : 0 < k) (negative : Bool) (num den : Nat) :
    ofQuotient negative (num * k) (den * k) = ofQuotient negative num den := by
  have same := Magnitude.nearest?_congr (Magnitude.roundUnits_mul hk num den)
  unfold ofQuotient
  rw [same]

theorem ofQuotient_units (negative : Bool) (m : Magnitude) :
    ofQuotient negative m.units 1 = finite negative m := by
  have exact := Magnitude.nearest?_of_roundUnits (Magnitude.roundUnits_of_fits m.fits)
  unfold ofQuotient
  rw [exact]

end Number

namespace Decimal

def Useful (d : Decimal) : Prop :=
  -((d.coefficient.log2 + 401 : Nat) : Int) ≤ d.exponent ∧ d.exponent ≤ 400

theorem Useful.usefulExponent_eq {d : Decimal} (h : d.Useful) : d.usefulExponent = d.exponent := by
  obtain ⟨low, high⟩ := h
  rw [usefulExponent]
  omega

end Decimal

namespace Number

theorem ofDecimal_scaled {d : Decimal} (h : d.Useful) {k n : Nat} (hk : (k : Int) = d.exponent + n)
    (negative : Bool) :
    ofDecimal negative d =
      ofQuotient negative (d.coefficient * Nat.pow 10 k * Magnitude.one) (Nat.pow 10 n) := by
  unfold ofDecimal
  rw [h.usefulExponent_eq]
  cases he : d.exponent with
  | ofNat e =>
    have split : k = e + n := by
      rw [he] at hk
      exact Int.ofNat.inj hk
    have scaled := ofQuotient_mul (Magnitude.ten_pow_pos n) negative
      (d.coefficient * Nat.pow 10 e * Magnitude.one) 1
    rw [Nat.one_mul, Nat.mul_right_comm, Nat.mul_assoc d.coefficient] at scaled
    simp only [Nat.pow_eq, ← Nat.pow_add, ← split] at scaled ⊢
    exact scaled.symm
  | negSucc e =>
    have split : n = e + 1 + k := by
      rw [he] at hk
      omega
    have scaled := ofQuotient_mul (Magnitude.ten_pow_pos k) negative (d.coefficient * Magnitude.one)
      (Nat.pow 10 (e + 1))
    rw [Nat.mul_right_comm] at scaled
    simp only [Nat.pow_eq, ← Nat.pow_add, ← split] at scaled ⊢
    exact scaled.symm

theorem ofDecimal_congr {d d' : Decimal} (h : d.Useful) (h' : d'.Useful) {k k' n : Nat}
    (hk : (k : Int) = d.exponent + n) (hk' : (k' : Int) = d'.exponent + n)
    (hv : d.coefficient * Nat.pow 10 k = d'.coefficient * Nat.pow 10 k') (negative : Bool) :
    ofDecimal negative d = ofDecimal negative d' := by
  rw [ofDecimal_scaled h hk, ofDecimal_scaled h' hk', hv]

theorem ofDecimal_of_units {d : Decimal} (h : d.Useful) {k n : Nat}
    (hk : (k : Int) = d.exponent + n) {m : Magnitude}
    (hm : d.coefficient * Nat.pow 10 k * Magnitude.one = m.units * Nat.pow 10 n)
    (negative : Bool) : ofDecimal negative d = finite negative m := by
  have scaled := ofQuotient_mul (Magnitude.ten_pow_pos n) negative m.units 1
  rw [Nat.one_mul, ofQuotient_units] at scaled
  rw [ofDecimal_scaled h hk, hm, scaled]

end Number

end LetLang
