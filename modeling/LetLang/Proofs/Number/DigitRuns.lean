import LetLang.Proofs.Number.Numerals

namespace LetLang

namespace Digits

theorem appendTo_eq (n : Nat) (ds : List Nat) :
    appendTo n ds = n * Nat.pow 10 ds.length + value ds := by
  induction ds generalizing n with
  | nil => simp [appendTo, value]
  | cons d ds ih =>
    have front : value (d :: ds) = appendTo d ds := by simp [value, appendTo]
    rw [appendTo_cons, ih, front, ih d, List.length_cons]
    simp only [Nat.pow_eq, Nat.pow_succ]
    generalize 10 ^ ds.length = p
    have first : (10 * n + d) * p = n * (p * 10) + d * p := by
      rw [Nat.add_mul, Nat.mul_comm p 10, ← Nat.mul_assoc, Nat.mul_comm n 10]
    rw [first, Nat.add_assoc]

theorem value_append (ds es : List Nat) :
    value (ds ++ es) = value ds * Nat.pow 10 es.length + value es := by
  exact (appendTo_append 0 ds es).trans (appendTo_eq _ es)

theorem value_cons (d : Nat) (ds : List Nat) :
    value (d :: ds) = d * Nat.pow 10 ds.length + value ds := by
  have split := value_append [d] ds
  simpa [value, appendTo] using split

theorem value_zeros (k : Nat) : value (List.replicate k 0) = 0 := by
  induction k with
  | zero => rfl
  | succ k ih => rw [List.replicate_succ, value_cons, ih, Nat.zero_mul]

theorem value_lt {ds : List Nat} (h : ∀ d ∈ ds, d < 10) : value ds < Nat.pow 10 ds.length := by
  induction ds with
  | nil => decide
  | cons d ds ih =>
    obtain ⟨hd, hds⟩ := List.forall_mem_cons.mp h
    have rest := ih hds
    have first : d * Nat.pow 10 ds.length ≤ 9 * Nat.pow 10 ds.length :=
      Nat.mul_le_mul_right _ (by omega)
    rw [value_cons, List.length_cons]
    simp only [Nat.pow_eq, Nat.pow_succ] at first rest ⊢
    omega

theorem pushFront_head {steps n : Nat} (hn : 0 < n) (h : n < Nat.pow 2 steps) (rest : List Nat) :
    ∃ d ds, pushFront steps n rest = d :: ds ∧ 0 < d := by
  induction steps generalizing n rest with
  | zero => exact absurd h (by simp; omega)
  | succ steps ih =>
    simp only [pushFront]
    split
    · exact ⟨n, rest, rfl, hn⟩
    · apply ih
      · omega
      · simp only [Nat.pow_eq, Nat.pow_succ] at h ⊢
        omega

theorem ofNat_head {n : Nat} (hn : 0 < n) : ∃ d ds, ofNat n = d :: ds ∧ 0 < d :=
  pushFront_head hn Nat.lt_log2_self []

theorem ofNat_ne_nil (n : Nat) : ofNat n ≠ [] := by
  rcases Nat.eq_zero_or_pos n with rfl | positive
  · decide
  · obtain ⟨d, ds, hd, _⟩ := ofNat_head positive
    simp [hd]

theorem lt_pow_length (n : Nat) : n < Nat.pow 10 (ofNat n).length := by
  have bound := value_lt fun d hd => ofNat_lt (n := n) hd
  rwa [value_ofNat] at bound

theorem pow_length_le {n : Nat} (hn : 0 < n) : Nat.pow 10 ((ofNat n).length - 1) ≤ n := by
  obtain ⟨d, ds, hd, positive⟩ := ofNat_head hn
  have written := value_ofNat n
  rw [hd, value_cons] at written
  rw [hd, List.length_cons, Nat.add_sub_cancel]
  calc Nat.pow 10 ds.length ≤ d * Nat.pow 10 ds.length := Nat.le_mul_of_pos_left _ positive
    _ ≤ n := by omega

theorem isDigit_char {d : Nat} (h : d < 10) : (char d).isDigit := by
  have digit : ∀ d : Fin 10, (char d).isDigit := by decide
  exact digit ⟨d, h⟩

end Digits

namespace Numeral
open Digits

variable {ds es : List Nat} {rest : List Char}

theorem digital_map (h : ∀ d ∈ ds, d < 10) : Digital (ds.map char) := by
  intro c hc
  obtain ⟨d, hd, rfl⟩ := List.mem_map.mp hc
  exact isDigit_char (h d hd)

theorem moreDigits_map (h : ∀ d ∈ ds, d < 10) (hr : Ends rest) :
    moreDigits (ds.map char ++ rest) = (ds, rest) := by
  induction ds with
  | nil => exact hr.moreDigits_eq
  | cons d ds ih =>
    obtain ⟨hd, hds⟩ := List.forall_mem_cons.mp h
    have noBar := not_bar_of_isDigit (isDigit_char hd)
    rw [List.map_cons, List.cons_append, moreDigits.eq_3 _ _ (fun _ _ bar _ => noBar bar),
      ofChar?_char hd]
    simp only [ih hds]

theorem digits_map (h : ∀ d ∈ ds, d < 10) (hd : ds ≠ []) (hr : Ends rest) :
    digits (ds.map char ++ rest) = (ds, rest) := by
  obtain ⟨d, ds, rfl⟩ := List.exists_cons_of_ne_nil hd
  obtain ⟨first, others⟩ := List.forall_mem_cons.mp h
  rw [List.map_cons, List.cons_append, digits, ofChar?_char first]
  simp only [moreDigits_map others hr]

theorem decimal?_eq {cs behind rest : List Char} {e : Int} (whole : digits cs = (ds, behind))
    (hd : ds ≠ []) (part : fraction behind = (es, rest)) (he : exponent? rest = some e) :
    decimal? cs = some ⟨value (ds ++ es), e - es.length⟩ := by
  simp [decimal?, whole, part, he, hd]

theorem decimal?_whole (h : ∀ d ∈ ds, d < 10) (hd : ds ≠ []) :
    Simple (ds.map char) ∧ decimal? (ds.map char) = some ⟨value ds, 0⟩ := by
  have run := digits_map h hd ends_nil
  rw [List.append_nil] at run
  have decimal : decimal? (ds.map char) = some ⟨value (ds ++ []), 0⟩ := decimal?_eq run hd rfl rfl
  rw [List.append_nil] at decimal
  exact ⟨.whole (digital_map h) (by simpa using hd), decimal⟩

theorem decimal?_pointed (h : ∀ d ∈ ds, d < 10) (hd : ds ≠ []) (he : ∀ d ∈ es, d < 10) :
    Simple (ds.map char ++ '.' :: es.map char) ∧
    decimal? (ds.map char ++ '.' :: es.map char) =
      some ⟨value (ds ++ es), -(es.length : Int)⟩ := by
  have whole : digits (ds.map char ++ '.' :: es.map char) = (ds, '.' :: es.map char) :=
    digits_map h hd (ends_point _)
  have part : digits (es.map char) = (es, []) := by
    by_cases empty : es = []
    · rw [empty]
      rfl
    · have run := digits_map he empty ends_nil
      rwa [List.append_nil] at run
  have decimal := decimal?_eq whole hd part rfl
  rw [Int.zero_sub] at decimal
  exact ⟨.pointed (digital_map h) (by simpa using hd) (digital_map he), decimal⟩

end Numeral

end LetLang
