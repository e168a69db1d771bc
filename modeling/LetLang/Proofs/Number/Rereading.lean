import LetLang.Proofs.Number.Guards
import LetLang.Proofs.Number.Positional
import LetLang.Value.Text

namespace LetLang

theorem lt_of_ten_pow_lt {a b : Nat} (h : Nat.pow 10 a < Nat.pow 10 b) : a < b :=
  (Nat.pow_lt_pow_iff_right (by decide)).mp h

namespace Magnitude
open Digits

theorem units_lt_of_not_whole {m : Magnitude} (h : m.units % one ≠ 0) :
    m.units < Nat.pow 2 52 * one := by
  obtain ⟨k, e, hk, hu⟩ := m.fits
  unfold one at h ⊢
  generalize 1074 = a at h ⊢
  have below : e < a := by
    rcases Nat.lt_or_ge e a with below | above
    · exact below
    · have whole : Nat.pow 2 a ∣ m.units := by
        rw [hu]
        exact Nat.dvd_trans (Nat.pow_dvd_pow 2 above) (Nat.dvd_mul_left _ _)
      exact absurd (Nat.mod_eq_zero_of_dvd whole) h
  calc m.units = k * Nat.pow 2 e := hu
    _ < Nat.pow 2 53 * Nat.pow 2 e := Nat.mul_lt_mul_of_pos_right hk (Nat.two_pow_pos e)
    _ = Nat.pow 2 52 * Nat.pow 2 (e + 1) := by
      simp only [Nat.pow_eq, Nat.pow_succ 2 e]
      omega
    _ ≤ Nat.pow 2 52 * Nat.pow 2 a := Nat.mul_le_mul_left _ (Nat.pow_le_pow_right (by decide) below)

theorem exactCoefficient_pos {m : Magnitude} (h : 0 < m.units) : 0 < m.exactCoefficient := by
  unfold exactCoefficient
  generalize 1074 = e
  exact Nat.mul_pos h (Nat.pow_pos (by decide))

section Width

variable {e : Nat} (he : e = 1074)
include he

theorem exactCoefficient_mul_one (m : Magnitude) :
    m.exactCoefficient * one = m.units * Nat.pow 10 e := by
  unfold exactCoefficient one
  rw [← he, Nat.mul_assoc]
  exact congrArg (m.units * ·) (Nat.mul_pow 5 2 e).symm

theorem pow_le_exactCoefficient {m : Magnitude} (h : one ≤ 10000 * m.units) :
    Nat.pow 10 e ≤ m.exactCoefficient * Nat.pow 10 4 := by
  have scaled := Nat.mul_le_mul_right (Nat.pow 10 e) h
  rw [Nat.mul_assoc, ← exactCoefficient_mul_one he, ← Nat.mul_assoc, Nat.mul_comm one,
    Nat.mul_comm 10000] at scaled
  exact Nat.le_of_mul_le_mul_right scaled one_pos

theorem exactCoefficient_lt {m : Magnitude} (h : m.units % one ≠ 0) :
    2 * m.exactCoefficient < Nat.pow 10 16 * Nat.pow 10 e := by
  have scaled : m.exactCoefficient * one < Nat.pow 2 52 * Nat.pow 10 e * one := by
    rw [exactCoefficient_mul_one he, Nat.mul_right_comm]
    exact Nat.mul_lt_mul_of_pos_right (units_lt_of_not_whole h) (ten_pow_pos e)
  have small := Nat.lt_of_mul_lt_mul_right scaled
  have two : Nat.pow 2 52 = 4503599627370496 := rfl
  have ten : Nat.pow 10 16 = 10000000000000000 := rfl
  rw [two] at small
  rw [ten]
  omega

end Width

theorem width_gt {m : Magnitude} (h : one ≤ 10000 * m.units) :
    1070 < (ofNat m.exactCoefficient).length := by
  obtain ⟨e, he⟩ : ∃ e, e = 1074 := ⟨_, rfl⟩
  have places : e < (ofNat m.exactCoefficient).length + 4 := by
    apply lt_of_ten_pow_lt
    refine Nat.lt_of_le_of_lt (pow_le_exactCoefficient he h) ?_
    simp only [Nat.pow_eq, Nat.pow_add]
    exact Nat.mul_lt_mul_of_pos_right (lt_pow_length _) (by decide)
  omega

theorem width_le {m : Magnitude} (hm : 0 < m.exactCoefficient) (h : m.units % one ≠ 0) :
    (ofNat (2 * m.exactCoefficient)).length ≤ 1090 := by
  obtain ⟨e, he⟩ : ∃ e, e = 1074 := ⟨_, rfl⟩
  have places : (ofNat (2 * m.exactCoefficient)).length - 1 < 16 + e := by
    apply lt_of_ten_pow_lt
    refine Nat.lt_of_le_of_lt (pow_length_le (by omega)) ?_
    simp only [Nat.pow_eq, Nat.pow_add]
    exact exactCoefficient_lt he h
  omega

theorem readsAs_exact {m : Magnitude} (h : 673 < (ofNat m.exactCoefficient).length)
    (hm : 0 < m.exactCoefficient) : ReadsAs m.exact m := by
  obtain ⟨e, he⟩ : ∃ e, e = 1074 := ⟨_, rfl⟩
  have bits := le_log2_of_pow_le (pow_length_le hm)
  have useful : m.exact.Useful := by
    unfold Decimal.Useful exact
    dsimp only
    omega
  refine Number.ofDecimal_of_units (k := 0) (n := e) useful ?_ ?_ false
  · unfold exact
    dsimp only
    omega
  · rw [Nat.pow_eq, Nat.pow_zero, Nat.mul_one]
    exact exactCoefficient_mul_one he m

structure Near (m : Magnitude) (d : Decimal) (dropped : Nat) : Prop where
  reads : ReadsAs d m
  exponent : d.exponent = (dropped : Int) - 1074
  low : Nat.pow 10 ((ofNat m.exactCoefficient).length - 1) ≤ d.coefficient * Nat.pow 10 dropped
  high : d.coefficient * Nat.pow 10 dropped ≤ 2 * m.exactCoefficient

theorem nearestCut?_cases {m : Magnitude} {dropped : Nat} {d : Decimal}
    (h : m.nearestCut? dropped = some d) :
    ReadsAs d m ∧ d.exponent = (dropped : Int) - 1074 ∧
      (d.coefficient = m.exactCoefficient / Nat.pow 10 dropped ∨
        d.coefficient = m.exactCoefficient / Nat.pow 10 dropped + 1) := by
  unfold nearestCut? at h
  dsimp only at h
  split at h
  · split at h
    · rename_i closer
      cases h
      exact ⟨closer.1, rfl, .inr rfl⟩
    · cases h
      exact ⟨‹_›, rfl, .inl rfl⟩
  · split at h
    · cases h
      exact ⟨‹_›, rfl, .inr rfl⟩
    · cases h

theorem nearestCut?_near {m : Magnitude} {dropped : Nat} {d : Decimal}
    (hd : dropped ≤ (ofNat m.exactCoefficient).length - 1) (hm : 0 < m.exactCoefficient)
    (h : m.nearestCut? dropped = some d) : m.Near d dropped := by
  obtain ⟨reads, exponent, coefficient⟩ := nearestCut?_cases h
  have first := pow_length_le hm
  have split : Nat.pow 10 ((ofNat m.exactCoefficient).length - 1) =
      Nat.pow 10 ((ofNat m.exactCoefficient).length - 1 - dropped) * Nat.pow 10 dropped := by
    simp only [Nat.pow_eq, ← Nat.pow_add, Nat.sub_add_cancel hd]
  have step : Nat.pow 10 dropped ≤ m.exactCoefficient :=
    Nat.le_trans (Nat.pow_le_pow_right (by decide) hd) first
  have below := (Nat.le_div_iff_mul_le (ten_pow_pos dropped)).mpr (split ▸ first)
  have scaled := Nat.mul_le_mul_right (Nat.pow 10 dropped) below
  have cut := Nat.div_mul_le_self m.exactCoefficient (Nat.pow 10 dropped)
  rw [← split] at scaled
  rcases coefficient with same | next
  · refine ⟨reads, exponent, ?_, ?_⟩ <;> rw [same] <;> omega
  · refine ⟨reads, exponent, ?_, ?_⟩ <;> rw [next, Nat.add_mul, Nat.one_mul] <;> omega

theorem exists_near {m : Magnitude} (h : 673 < (ofNat m.exactCoefficient).length)
    (hm : 0 < m.exactCoefficient) : ∃ dropped, m.Near m.shortest dropped := by
  unfold shortest
  dsimp only
  cases found : (List.range' 1 17).findSome? fun n =>
      m.nearestCut? ((ofNat m.exactCoefficient).length - n) with
  | none =>
    -- no cut reads back, so all digits of the exact value are written
    have whole : m.exact.coefficient * Nat.pow 10 0 = m.exactCoefficient := by
      simp only [exact, Nat.pow_eq, Nat.pow_zero, Nat.mul_one]
    refine ⟨0, readsAs_exact h hm, rfl, ?_, ?_⟩
    · rw [Option.getD_none, whole]
      exact pow_length_le hm
    · rw [Option.getD_none, whole]
      omega
  | some d =>
    obtain ⟨n, hn, cut⟩ := List.exists_of_findSome?_eq_some found
    have one_le : 1 ≤ n := (List.mem_range'_1.mp hn).1
    exact ⟨_, nearestCut?_near (by omega) hm cut⟩

theorem Near.leading_mem {m : Magnitude} {d : Decimal} {dropped : Nat} (near : m.Near d dropped) :
    0 < d.coefficient ∧ ((ofNat m.exactCoefficient).length : Int) - 1075 ≤ d.leading ∧
      d.leading < ((ofNat (2 * m.exactCoefficient)).length : Int) - 1074 := by
  have exponent := near.exponent
  have positive : 0 < d.coefficient :=
    Nat.pos_of_mul_pos_right (Nat.lt_of_lt_of_le (ten_pow_pos _) near.low)
  have nonempty := List.length_pos_iff.mpr (ofNat_ne_nil d.coefficient)
  have leading := Decimal.leading_of_pos positive
  have low : (ofNat m.exactCoefficient).length - 1 < (ofNat d.coefficient).length + dropped := by
    apply lt_of_ten_pow_lt
    refine Nat.lt_of_le_of_lt near.low ?_
    simp only [Nat.pow_eq, Nat.pow_add]
    exact Nat.mul_lt_mul_of_pos_right (lt_pow_length _) (ten_pow_pos dropped)
  have high : (ofNat d.coefficient).length - 1 + dropped <
      (ofNat (2 * m.exactCoefficient)).length := by
    apply lt_of_ten_pow_lt
    refine Nat.lt_of_le_of_lt ?_ (Nat.lt_of_le_of_lt near.high (lt_pow_length _))
    simp only [Nat.pow_eq, Nat.pow_add]
    exact Nat.mul_le_mul_right _ (pow_length_le positive)
  exact ⟨positive, by omega, by omega⟩

theorem shortest_positional {m : Magnitude} (hl : one ≤ 10000 * m.units)
    (hw : m.units % one ≠ 0) :
    ReadsAs m.shortest m ∧ 0 < m.shortest.coefficient ∧ -4 ≤ m.shortest.leading ∧
      m.shortest.leading < 16 := by
  have positive : 0 < m.exactCoefficient :=
    exactCoefficient_pos (Nat.pos_of_ne_zero fun zero => hw (by rw [zero, Nat.zero_mod]))
  have wide := width_gt hl
  have narrow := width_le positive hw
  obtain ⟨dropped, near⟩ := exists_near (by omega) positive
  obtain ⟨nonzero, low, high⟩ := near.leading_mem
  exact ⟨near.reads, nonzero, by omega, by omega⟩

end Magnitude

namespace Number
open Numeral

def Plain : Number → Prop
  | finite negative m => m.units = 0 ∨ (negative = false ∧ Magnitude.one ≤ 10000 * m.units)
  | _ => False

theorem Plain.signedUnits_eq {negative : Bool} {m : Magnitude} (h : (finite negative m).Plain) :
    signedUnits negative m = m.units := by
  rcases h with zero | ⟨rfl, _⟩
  · simp [signedUnits, zero]
  · rfl

theorem Plain.sameValue {negative : Bool} {m : Magnitude} (h : (finite negative m).Plain) :
    (finite negative m).sameValue (finite false m) := by
  rw [Number.sameValue, h.signedUnits_eq]
  exact beq_self_eq_true _

theorem read?_digits (n : Nat) :
    Simple (Digits.text n) ∧ read? (Digits.text n) = some (.ofDecimal false ⟨n, 0⟩) := by
  obtain ⟨simple, read⟩ := decimal?_whole (fun d hd => Digits.ofNat_lt hd) (Digits.ofNat_ne_nil n)
  rw [Digits.value_ofNat] at read
  exact ⟨simple, read?_of_decimal? simple read⟩

theorem ofDecimal_whole {m : Magnitude} (h : m.units % Magnitude.one = 0) :
    ofDecimal false ⟨m.units / Magnitude.one, 0⟩ = finite false m := by
  have useful : Decimal.Useful ⟨m.units / Magnitude.one, 0⟩ := by
    unfold Decimal.Useful
    dsimp only
    omega
  refine ofDecimal_of_units (k := 0) (n := 0) useful rfl ?_ false
  simp only [Nat.pow_eq, Nat.pow_zero, Nat.mul_one]
  exact Nat.div_mul_cancel (Nat.dvd_of_mod_eq_zero h)

theorem Plain.whole?_eq {negative : Bool} {m : Magnitude} (h : (finite negative m).Plain)
    (hw : m.units % Magnitude.one = 0) :
    (finite negative m).whole? = some ((m.units / Magnitude.one : Nat) : Int) := by
  unfold whole?
  dsimp only
  rw [if_pos hw, h.signedUnits_eq, Int.natCast_ediv]

theorem whole?_eq_none {negative : Bool} {m : Magnitude} (hw : m.units % Magnitude.one ≠ 0) :
    (finite negative m).whole? = none := by
  unfold whole?
  dsimp only
  rw [if_neg hw]

theorem plainText_of_whole? {x : Number} {n : Nat} (h : x.whole? = some (n : Int)) :
    x.plainText = String.ofList (Digits.text n) := by
  have nonnegative : ¬ (n : Int) < 0 := Int.not_lt.mpr (Int.natCast_nonneg n)
  unfold plainText
  rw [h]
  simp only [decide_eq_false nonnegative, signText, Bool.false_eq_true, if_false, List.nil_append,
    Int.natAbs_natCast]

theorem plainText_of_not_whole {m : Magnitude} (h : (finite false m).whole? = none) :
    (finite false m).plainText =
      String.ofList (layout.write m.shortest.significant m.shortest.leading) := by
  unfold plainText
  rw [h]
  unfold text chars
  exact congrArg String.ofList (List.nil_append _)

theorem Plain.rereads {x : Number} (h : x.Plain) :
    Simple x.plainText.toList ∧ ∃ y, ofText? x.plainText = some y ∧ x.sameValue y := by
  match x with
  | finite negative m =>
    have same := h.sameValue
    by_cases whole : m.units % Magnitude.one = 0
    · obtain ⟨simple, read⟩ := read?_digits (m.units / Magnitude.one)
      rw [ofDecimal_whole whole] at read
      rw [plainText_of_whole? (h.whole?_eq whole), ofText?, String.toList_ofList]
      exact ⟨simple, _, read, same⟩
    · obtain ⟨rfl, large⟩ : negative = false ∧ Magnitude.one ≤ 10000 * m.units := by
        refine h.resolve_left fun zero => whole ?_
        rw [zero, Nat.zero_mod]
      obtain ⟨reads, nonzero, low, high⟩ := Magnitude.shortest_positional large whole
      obtain ⟨simple, read⟩ := write_reads nonzero low high
      rw [reads] at read
      rw [plainText_of_not_whole (whole?_eq_none whole), ofText?, String.toList_ofList]
      exact ⟨simple, _, read, same⟩

end Number

end LetLang
