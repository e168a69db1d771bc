import LetLang.Proofs.Number.Rereading

namespace LetLang
open Digits

namespace Magnitude

theorem pow_two_le (k : Nat) : Nat.pow 2 (3 * k) ≤ Nat.pow 10 k := by
  simp only [Nat.pow_eq, Nat.pow_mul]
  exact Nat.pow_le_pow_left (by decide) k

theorem pow_ten_le (k : Nat) : Nat.pow 10 (2 * k) ≤ Nat.pow 5 (3 * k) := by
  simp only [Nat.pow_eq, Nat.pow_mul]
  exact Nat.pow_le_pow_left (by decide) k

theorem width_gt_of_pos {m : Magnitude} (h : 0 < m.units) :
    673 < (ofNat m.exactCoefficient).length := by
  obtain ⟨k, hk⟩ : ∃ k, k = 358 := ⟨_, rfl⟩
  have exponent : 1074 = 3 * k := by omega
  have places : 2 * k < (ofNat m.exactCoefficient).length := by
    apply lt_of_ten_pow_lt
    refine Nat.lt_of_le_of_lt ?_ (lt_pow_length _)
    rw [exactCoefficient, exponent]
    exact Nat.le_trans (pow_ten_le k) (Nat.le_mul_of_pos_left _ h)
  omega

theorem two_mul_pow_le {a b c : Nat} (h : a < b + c) :
    2 * Nat.pow 2 a ≤ Nat.pow 2 b * Nat.pow 2 c := by
  simp only [Nat.pow_eq, ← Nat.pow_add, ← Nat.pow_succ']
  exact Nat.pow_le_pow_right (by decide) h

theorem width_le_of_pos {m : Magnitude} (h : 0 < m.units) :
    (ofNat (2 * m.exactCoefficient)).length ≤ 1474 := by
  obtain ⟨e, he⟩ : ∃ e, e = 1074 := ⟨_, rfl⟩
  obtain ⟨k, hk⟩ : ∃ k, k = 342 := ⟨_, rfl⟩
  have small : 2 * m.units ≤ Nat.pow 2 (3 * k) * one := by
    refine Nat.le_trans (Nat.mul_le_mul_left 2 (Nat.le_of_lt m.small)) ?_
    unfold limit one
    rw [← he]
    generalize hl : 2098 = l
    exact two_mul_pow_le (by omega)
  have scaled : 2 * m.exactCoefficient * one ≤ Nat.pow 2 (3 * k) * Nat.pow 10 e * one := by
    rw [Nat.mul_assoc, exactCoefficient_mul_one he, ← Nat.mul_assoc,
      Nat.mul_right_comm (Nat.pow 2 (3 * k))]
    exact Nat.mul_le_mul_right _ small
  have places : (ofNat (2 * m.exactCoefficient)).length - 1 < k + e + 1 := by
    apply lt_of_ten_pow_lt
    calc Nat.pow 10 ((ofNat (2 * m.exactCoefficient)).length - 1)
      _ ≤ 2 * m.exactCoefficient :=
        pow_length_le (Nat.mul_pos (by decide) (exactCoefficient_pos h))
      _ ≤ Nat.pow 2 (3 * k) * Nat.pow 10 e := Nat.le_of_mul_le_mul_right scaled one_pos
      _ ≤ Nat.pow 10 k * Nat.pow 10 e := Nat.mul_le_mul_right _ (pow_two_le k)
      _ = Nat.pow 10 (k + e) := (Nat.pow_add 10 k e).symm
      _ < Nat.pow 10 (k + e + 1) := Nat.pow_lt_pow_right (by decide) (Nat.lt_succ_self _)
  omega

theorem eq_zero_or_pos (m : Magnitude) : m = zero ∨ 0 < m.units := by
  obtain ⟨units, fits, small⟩ := m
  rcases Nat.eq_zero_or_pos units with rfl | positive
  · exact .inl rfl
  · exact .inr positive

theorem shortest_leading {m : Magnitude} (h : 0 < m.units) :
    ReadsAs m.shortest m ∧ 0 < m.shortest.coefficient ∧ -401 ≤ m.shortest.leading ∧
      m.shortest.leading ≤ 400 := by
  have wide := width_gt_of_pos h
  have narrow := width_le_of_pos h
  obtain ⟨dropped, near⟩ := exists_near wide (exactCoefficient_pos h)
  obtain ⟨nonzero, low, high⟩ := near.leading_mem
  exact ⟨near.reads, nonzero, by omega, by omega⟩

end Magnitude

namespace Numeral

structure Writes (cs : List Char) (d : Decimal) : Prop where
  head : ∃ c rest, cs = c :: rest ∧ c.isDigit
  visible : Visible cs
  reads : ∃ d', decimal? cs = some d' ∧
    ∀ negative, Number.ofDecimal negative d' = Number.ofDecimal negative d

theorem visible_append {cs ds : List Char} : Visible (cs ++ ds) ↔ Visible cs ∧ Visible ds :=
  List.forall_mem_append

theorem visible_cons {c : Char} {cs : List Char} :
    Visible (c :: cs) ↔ (33 ≤ c.toNat ∧ c.toNat < 128) ∧ Visible cs :=
  List.forall_mem_cons

theorem visible_map {ds : List Nat} (h : ∀ d ∈ ds, d < 10) : Visible (ds.map char) := by
  intro c hc
  have := toNat_of_isDigit (digital_map h c hc)
  omega

theorem exponentText_digits (layout : Layout) (e : Int) : ∃ ds, (∀ d ∈ ds, d < 10) ∧ ds ≠ [] ∧
    value ds = e.natAbs ∧
    layout.exponentText e = (if e < 0 then '-' else '+') :: ds.map char := by
  have places : ∀ d ∈ ofNat e.natAbs, d < 10 := fun d hd => ofNat_lt hd
  refine ⟨List.replicate (layout.exponentDigits - (text e.natAbs).length) 0 ++ ofNat e.natAbs,
    List.forall_mem_append.mpr ⟨zeros_lt _, places⟩, by simp [ofNat_ne_nil], ?_, ?_⟩
  · rw [value_append, value_zeros, value_ofNat, Nat.zero_mul, Nat.zero_add]
  · rw [Layout.exponentText, List.map_append, zeros_map]
    rfl

theorem exponent?_exponentText (layout : Layout) (e : Int) :
    exponent? ('e' :: layout.exponentText e) = some e := by
  obtain ⟨ds, small, nonempty, written, text⟩ := exponentText_digits layout e
  have run := digits_map small nonempty ends_nil
  have signed : ∀ cs, sign ((if e < 0 then '-' else '+') :: cs) = (decide (e < 0), cs) := by
    intro cs
    by_cases negative : e < 0 <;> simp [negative, sign]
  obtain ⟨d, ds, rfl⟩ := List.exists_cons_of_ne_nil nonempty
  rw [List.append_nil] at run
  rw [text, exponent?, if_pos (.inl rfl)]
  simp only [signed, run, written, decide_eq_true_eq, Option.some.injEq]
  split <;> omega

theorem exponentText_visible (layout : Layout) (e : Int) :
    Visible ('e' :: layout.exponentText e) := by
  obtain ⟨ds, small, _, _, text⟩ := exponentText_digits layout e
  rw [text, visible_cons, visible_cons]
  refine ⟨by decide, ?_, visible_map small⟩
  split <;> decide

theorem decimal?_exponent {d : Nat} {ds : List Nat} (h : ∀ k ∈ d :: ds, k < 10) (layout : Layout)
    {e : Int} (he : ¬ (layout.least ≤ e ∧ e < layout.beyond)) :
    Visible (layout.write ((d :: ds).map char) e) ∧
    (∃ rest, layout.write ((d :: ds).map char) e = char d :: rest) ∧
    decimal? (layout.write ((d :: ds).map char) e) = some ⟨value (d :: ds), e - ds.length⟩ := by
  obtain ⟨first, others⟩ := List.forall_mem_cons.mp h
  have exponent := exponent?_exponentText layout e
  have visible := exponentText_visible layout e
  have single : ∀ k ∈ [d], k < 10 := List.forall_mem_singleton.mpr first
  have one : [d] ≠ [] := List.cons_ne_nil d []
  unfold Layout.write
  rw [if_neg he]
  cases ds with
  | nil =>
    have run := digits_map single one (ends_exponent (layout.exponentText e))
    exact ⟨visible_append.mpr ⟨visible_map single, visible⟩, ⟨_, rfl⟩,
      decimal?_eq run one rfl exponent⟩
  | cons d' ds =>
    have run := digits_map single one
      (ends_point ((d' :: ds).map char ++ 'e' :: layout.exponentText e))
    have behind := digits_map others (List.cons_ne_nil d' ds)
      (ends_exponent (layout.exponentText e))
    have part := visible_append.mpr ⟨visible_map others, visible⟩
    exact ⟨visible_append.mpr ⟨visible_map single, visible_cons.mpr ⟨by decide, part⟩⟩, ⟨_, rfl⟩,
      decimal?_eq run one behind exponent⟩

theorem write_writes {d : Decimal} (hc : 0 < d.coefficient) (hl : -401 ≤ d.leading)
    (hu : d.leading ≤ 400) : Writes (Number.layout.write d.significant d.leading) d := by
  by_cases positional : Number.layout.least ≤ d.leading ∧ d.leading < Number.layout.beyond
  · obtain ⟨simple, reads⟩ := write_positional hc positional.1 positional.2
    exact ⟨simple.head, simple.visible, reads⟩
  · obtain ⟨kept, z, written⟩ := Decimal.exists_written hc
    have useful := written.useful hl hu
    have places := written.leading
    rw [written.significant]
    obtain ⟨k, ks, rfl⟩ := List.exists_cons_of_ne_nil written.nonempty
    obtain ⟨visible, ⟨rest, first⟩, reads⟩ := decimal?_exponent written.small _ positional
    refine ⟨⟨_, rest, first, isDigit_char (written.small k List.mem_cons_self)⟩, visible, _, reads, ?_⟩
    have value := written.ofDecimal_eq useful (j := 0) (e := d.leading - ks.length)
    rw [List.length_cons] at places value
    rw [Nat.pow_eq, Nat.pow_zero, Nat.mul_one] at value
    exact value (by omega) (by omega) (by omega)

theorem Writes.read? {cs : List Char} {d : Decimal} (h : Writes cs d) (negative : Bool) :
    read? (Number.signText negative ++ cs) = some (.ofDecimal negative d) := by
  obtain ⟨⟨c, rest, rfl, hc⟩, visible, d', reads, value⟩ := h
  rw [← value]
  cases negative with
  | false => exact read?_signed hc visible (sign_of_isDigit hc) reads
  | true => exact read?_signed hc (visible_cons.mpr ⟨by decide, visible⟩) rfl reads

end Numeral

namespace Number
open Numeral

theorem ofQuotient_eq_finite {num den : Nat} {m : Magnitude} {a : Bool}
    (h : ofQuotient a num den = finite a m) (b : Bool) : ofQuotient b num den = finite b m := by
  unfold ofQuotient at h ⊢
  split at h
  · cases h
    rfl
  · cases h

theorem ofDecimal_of_readsAs {d : Decimal} {m : Magnitude} (h : Magnitude.ReadsAs d m)
    (negative : Bool) : ofDecimal negative d = finite negative m := by
  unfold Magnitude.ReadsAs ofDecimal at h
  unfold ofDecimal
  split at h
  · exact ofQuotient_eq_finite h negative
  · exact ofQuotient_eq_finite h negative

theorem writes_shortest {m : Magnitude} (h : 0 < m.units) :
    Writes (layout.write m.shortest.significant m.shortest.leading) m.shortest := by
  obtain ⟨_, nonzero, low, high⟩ := Magnitude.shortest_leading h
  exact write_writes nonzero low high

theorem visible_chars (x : Number) : Visible x.chars := by
  match x with
  | nan => decide
  | infinite negative => cases negative <;> decide
  | finite negative m =>
    rcases m.eq_zero_or_pos with rfl | positive
    · cases negative <;> decide +kernel
    · refine visible_append.mpr ⟨?_, (writes_shortest positive).visible⟩
      cases negative <;> decide

theorem ofText?_text (x : Number) : ofText? x.text = some x := by
  match x with
  | nan => decide +kernel
  | infinite negative => cases negative <;> decide +kernel
  | finite negative m =>
    rcases m.eq_zero_or_pos with rfl | positive
    · cases negative <;> decide +kernel
    · have read := (writes_shortest positive).read? negative
      rw [ofDecimal_of_readsAs (Magnitude.shortest_leading positive).1] at read
      rw [text, ofText?, String.toList_ofList]
      exact read

theorem text_injective {x y : Number} (h : x.text = y.text) : x = y := by
  have read := ofText?_text x
  rw [h, ofText?_text y] at read
  exact (Option.some.inj read).symm

end Number

end LetLang
