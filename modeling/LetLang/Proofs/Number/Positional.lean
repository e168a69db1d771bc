import LetLang.Number.Text
import LetLang.Proofs.Number.DigitRuns
import LetLang.Proofs.Number.Rounding
import Mathlib.Data.List.Induction

namespace LetLang
open Digits Numeral

theorem le_log2_of_pow_le {k n : Nat} (h : Nat.pow 10 k ≤ n) : k ≤ n.log2 := by
  have nonzero : n ≠ 0 := Nat.ne_of_gt (Nat.lt_of_lt_of_le (Magnitude.ten_pow_pos k) h)
  rw [Nat.le_log2 nonzero]
  exact Nat.le_trans (Nat.pow_le_pow_left (by decide) k) h

theorem exists_significant {ds : List Nat} (h : ∀ d ∈ ds, d < 10) :
    ∃ kept z, ds = kept ++ List.replicate z 0 ∧
      ((ds.map char).reverse.dropWhile (· == '0')).reverse = kept.map char := by
  induction ds using List.reverseRecOn with
  | nil => exact ⟨[], 0, rfl, rfl⟩
  | append_singleton ds d ih =>
    obtain ⟨front, last⟩ := List.forall_mem_append.mp h
    have small := last d (List.mem_singleton_self d)
    by_cases zero : d = 0
    · subst zero
      obtain ⟨kept, z, split, text⟩ := ih front
      refine ⟨kept, z + 1, ?_, ?_⟩
      · rw [split, List.append_assoc, ← List.replicate_succ']
      · rw [List.map_append, List.reverse_append]
        exact text
    · have other : (char d == '0') = false := by
        have digits : ∀ d : Fin 10, d ≠ 0 → (char d == '0') = false := by decide
        exact digits ⟨d, small⟩ (by simpa [Fin.ext_iff] using zero)
      refine ⟨ds ++ [d], 0, by simp, ?_⟩
      rw [List.map_append, List.reverse_append, List.map_singleton, List.reverse_singleton,
        List.singleton_append, List.dropWhile_cons_of_neg (by simp [other]), List.reverse_cons,
        List.reverse_reverse]

theorem Number.ofDecimal_shift {q z j : Nat} {e e' : Int} (h : e + z = e' + j)
    (hu : Decimal.Useful ⟨q * Nat.pow 10 z, e⟩) (hu' : Decimal.Useful ⟨q * Nat.pow 10 j, e'⟩)
    (negative : Bool) :
    ofDecimal negative ⟨q * Nat.pow 10 z, e⟩ = ofDecimal negative ⟨q * Nat.pow 10 j, e'⟩ := by
  obtain ⟨n, hn, hn'⟩ : ∃ n : Nat, 0 ≤ e + n ∧ 0 ≤ e' + n := ⟨(-e).toNat + (-e').toNat, by omega⟩
  obtain ⟨k, hk⟩ := Int.eq_ofNat_of_zero_le hn
  obtain ⟨k', hk'⟩ := Int.eq_ofNat_of_zero_le hn'
  refine ofDecimal_congr hu hu' hk.symm hk'.symm ?_ negative
  have places : z + k = j + k' := by omega
  simp only [Nat.pow_eq, Nat.mul_assoc, ← Nat.pow_add, places]

theorem Decimal.leading_of_pos {d : Decimal} (h : 0 < d.coefficient) :
    d.leading = d.exponent + (ofNat d.coefficient).length - 1 := by
  rw [leading, if_neg (Nat.ne_of_gt h), Digits.text, List.length_map]

structure Decimal.Written (d : Decimal) (kept : List Nat) (z : Nat) : Prop where
  small : ∀ k ∈ kept, k < 10
  nonempty : kept ≠ []
  significant : d.significant = kept.map char
  coefficient : d.coefficient = value kept * Nat.pow 10 z
  leading : d.leading = d.exponent + (kept.length + z : Nat) - 1
  first : Nat.pow 10 (kept.length - 1) ≤ value kept

theorem Decimal.exists_written {d : Decimal} (hc : 0 < d.coefficient) :
    ∃ kept z, d.Written kept z := by
  obtain ⟨kept, z, split, text⟩ := exists_significant fun k hk => ofNat_lt (n := d.coefficient) hk
  have coefficient : d.coefficient = value kept * Nat.pow 10 z := by
    have written := value_ofNat d.coefficient
    rw [split, value_append, value_zeros, List.length_replicate] at written
    exact written.symm
  have nonempty : kept ≠ [] := by
    rintro rfl
    rw [coefficient, value, appendTo, List.foldl_nil, Nat.zero_mul] at hc
    exact Nat.lt_irrefl 0 hc
  have length : (ofNat d.coefficient).length = kept.length + z := by
    rw [split, List.length_append, List.length_replicate]
  have positive := List.length_pos_iff.mpr nonempty
  refine ⟨kept, z, ?_, nonempty, ?_, coefficient, ?_, ?_⟩
  · intro k hk
    exact ofNat_lt (split ▸ List.mem_append_left _ hk)
  · have filled : ¬ (kept.map char).isEmpty := by simpa using nonempty
    rw [Decimal.significant, Digits.text]
    simp only [text, if_neg filled]
  · rw [Decimal.leading_of_pos hc, length]
  · have bound := pow_length_le hc
    have places : kept.length + z - 1 = kept.length - 1 + z := by omega
    rw [length, places, coefficient] at bound
    simp only [Nat.pow_eq, Nat.pow_add] at bound ⊢
    exact Nat.le_of_mul_le_mul_right bound (Nat.pow_pos (by decide))

theorem Decimal.Written.useful {d : Decimal} {kept : List Nat} {z : Nat} (h : d.Written kept z)
    (hl : -401 ≤ d.leading) (hu : d.leading ≤ 400) : d.Useful := by
  have places := h.leading
  have positive := List.length_pos_iff.mpr h.nonempty
  have bits : kept.length - 1 + z ≤ d.coefficient.log2 := by
    apply le_log2_of_pow_le
    rw [h.coefficient]
    simp only [Nat.pow_eq, Nat.pow_add]
    exact Nat.mul_le_mul_right _ h.first
  unfold Useful
  omega

theorem Decimal.Written.ofDecimal_eq {d : Decimal} {kept : List Nat} {z : Nat}
    (h : d.Written kept z) (hu : d.Useful) {j : Nat} {e : Int} (he : d.exponent + z = e + j)
    (hl : -(kept.length + 400 : Nat) ≤ e) (h0 : e ≤ 400) (negative : Bool) :
    Number.ofDecimal negative ⟨value kept * Nat.pow 10 j, e⟩ = Number.ofDecimal negative d := by
  obtain ⟨c, exponent⟩ := d
  obtain rfl : c = value kept * Nat.pow 10 z := h.coefficient
  have positive := List.length_pos_iff.mpr h.nonempty
  have bits : kept.length - 1 ≤ (value kept * Nat.pow 10 j).log2 := by
    apply le_log2_of_pow_le
    exact Nat.le_trans h.first (Nat.le_mul_of_pos_right _ (Magnitude.ten_pow_pos j))
  refine (Number.ofDecimal_shift he hu ?_ negative).symm
  unfold Useful
  dsimp only
  omega

theorem zeros_lt (k : Nat) : ∀ d ∈ List.replicate k 0, d < 10 := by
  intro d hd
  rw [List.eq_of_mem_replicate hd]
  decide

theorem zeros_map (k : Nat) : (List.replicate k 0).map char = List.replicate k '0' :=
  List.map_replicate

section Forms

variable {kept : List Nat} (h : ∀ d ∈ kept, d < 10)
include h

theorem decimal?_behind_zeros (k : Nat) :
    Simple ('0' :: '.' :: (List.replicate k '0' ++ kept.map char)) ∧
    decimal? ('0' :: '.' :: (List.replicate k '0' ++ kept.map char)) =
      some ⟨value kept * Nat.pow 10 0, -((k + kept.length : Nat) : Int)⟩ := by
  have behind : ∀ d ∈ List.replicate k 0 ++ kept, d < 10 :=
    List.forall_mem_append.mpr ⟨zeros_lt k, h⟩
  have read := decimal?_pointed (zeros_lt 1) (by simp) behind
  rw [List.map_append, zeros_map, zeros_map, value_append, value_append, value_zeros, value_zeros,
    List.length_append, List.length_replicate, Nat.zero_mul, Nat.zero_mul, Nat.zero_add,
    Nat.zero_add] at read
  rw [Nat.pow_eq, Nat.pow_zero, Nat.mul_one]
  exact read

theorem decimal?_before_zeros (hk : kept ≠ []) (k : Nat) :
    Simple (kept.map char ++ List.replicate k '0' ++ ['.', '0']) ∧
    decimal? (kept.map char ++ List.replicate k '0' ++ ['.', '0']) =
      some ⟨value kept * Nat.pow 10 (k + 1), -1⟩ := by
  have front : ∀ d ∈ kept ++ List.replicate k 0, d < 10 :=
    List.forall_mem_append.mpr ⟨h, zeros_lt k⟩
  have read := decimal?_pointed front (by simp [hk]) (zeros_lt 1)
  rw [List.append_assoc, List.replicate_append_replicate, value_append, value_zeros,
    List.length_replicate, List.length_replicate, Nat.add_zero, List.map_append, zeros_map,
    zeros_map] at read
  exact read

theorem decimal?_around_point {n : Nat} (hn : 0 < n) (hl : n < kept.length) :
    Simple ((kept.map char).take n ++ '.' :: (kept.map char).drop n) ∧
    decimal? ((kept.map char).take n ++ '.' :: (kept.map char).drop n) =
      some ⟨value kept * Nat.pow 10 0, -((kept.length - n : Nat) : Int)⟩ := by
  have front : ∀ d ∈ kept.take n, d < 10 := fun d hd => h d (List.mem_of_mem_take hd)
  have behind : ∀ d ∈ kept.drop n, d < 10 := fun d hd => h d (List.mem_of_mem_drop hd)
  have nonempty : kept.take n ≠ [] := by
    apply List.ne_nil_of_length_pos
    rw [List.length_take]
    omega
  have read := decimal?_pointed front nonempty behind
  rw [List.take_append_drop, List.length_drop, List.map_take, List.map_drop] at read
  rw [Nat.pow_eq, Nat.pow_zero, Nat.mul_one]
  exact read

end Forms

theorem write_positional {d : Decimal} (hc : 0 < d.coefficient) (hl : -4 ≤ d.leading)
    (hu : d.leading < 16) :
    Simple (Number.layout.write d.significant d.leading) ∧
    ∃ d', decimal? (Number.layout.write d.significant d.leading) = some d' ∧
      ∀ negative, Number.ofDecimal negative d' = Number.ofDecimal negative d := by
  obtain ⟨kept, z, written⟩ := Decimal.exists_written hc
  have useful := written.useful (by omega) (by omega)
  have places := written.leading
  unfold Layout.write
  rw [if_pos ⟨hl, hu⟩, written.significant]
  cases exponent : d.leading with
  | negSucc k =>
    rw [exponent] at places hl
    obtain ⟨simple, read⟩ := decimal?_behind_zeros written.small k
    exact ⟨simple, _, read, written.ofDecimal_eq useful (by omega) (by omega) (by omega)⟩
  | ofNat n =>
    rw [exponent, Int.ofNat_eq_natCast] at places hu
    dsimp only
    rw [List.length_map]
    split
    · obtain ⟨simple, read⟩ := decimal?_before_zeros written.small written.nonempty
        (n + 1 - kept.length)
      exact ⟨simple, _, read, written.ofDecimal_eq useful (by omega) (by omega) (by omega)⟩
    · obtain ⟨simple, read⟩ := decimal?_around_point written.small (Nat.succ_pos n) (by omega)
      exact ⟨simple, _, read, written.ofDecimal_eq useful (by omega) (by omega) (by omega)⟩

theorem write_reads {d : Decimal} (hc : 0 < d.coefficient) (hl : -4 ≤ d.leading)
    (hu : d.leading < 16) :
    Simple (Number.layout.write d.significant d.leading) ∧
    read? (Number.layout.write d.significant d.leading) = some (.ofDecimal false d) := by
  obtain ⟨simple, d', read, value⟩ := write_positional hc hl hu
  refine ⟨simple, ?_⟩
  rw [read?_of_decimal? simple read, value]

end LetLang
