import LetLang.Number.Numeral

namespace LetLang.Numeral

def Digital (cs : List Char) : Prop := ∀ c ∈ cs, c.isDigit

theorem Digital.cons {c : Char} {cs : List Char} (hc : c.isDigit) (h : Digital cs) :
    Digital (c :: cs) :=
  List.forall_mem_cons.mpr ⟨hc, h⟩

inductive Simple : List Char → Prop where
  | whole {ds : List Char} (h : Digital ds) (hd : ds ≠ []) : Simple ds
  | pointed {ds es : List Char} (h : Digital ds) (hd : ds ≠ []) (he : Digital es) :
      Simple (ds ++ '.' :: es)

theorem Simple.head {cs : List Char} (h : Simple cs) : ∃ c rest, cs = c :: rest ∧ c.isDigit := by
  cases h with
  | whole h hd =>
    obtain ⟨c, rest, rfl⟩ := List.exists_cons_of_ne_nil hd
    exact ⟨c, rest, rfl, h c (by simp)⟩
  | pointed h hd _ =>
    obtain ⟨c, rest, rfl⟩ := List.exists_cons_of_ne_nil hd
    exact ⟨c, _, rfl, h c (by simp)⟩

theorem Simple.mem {cs : List Char} (h : Simple cs) {c : Char} (hc : c ∈ cs) :
    c.isDigit ∨ c = '.' := by
  cases h with
  | whole h _ => exact .inl (h c hc)
  | pointed h _ he =>
    rcases List.mem_append.mp hc with hc | hc
    · exact .inl (h c hc)
    · rcases List.mem_cons.mp hc with hc | hc
      · exact .inr hc
      · exact .inl (he c hc)

theorem Simple.count_point_le {cs : List Char} (h : Simple cs) : cs.count '.' ≤ 1 := by
  have none_of_digital {ds : List Char} (hd : Digital ds) : ds.count '.' = 0 :=
    List.count_eq_zero.mpr fun hm => absurd (hd _ hm) (by decide)
  cases h with
  | whole h _ => exact Nat.le_trans (Nat.le_of_eq (none_of_digital h)) (Nat.zero_le 1)
  | pointed h _ he =>
    refine Nat.le_of_eq ?_
    rw [List.count_append, List.count_cons_self, none_of_digital h, none_of_digital he]

theorem toNat_of_isDigit {c : Char} (h : c.isDigit) : 48 ≤ c.toNat ∧ c.toNat ≤ 57 := by
  simp only [Char.isDigit, Bool.and_eq_true, decide_eq_true_eq] at h
  exact h

theorem ofChar?_of_isDigit {c : Char} (h : c.isDigit) : ∃ d, Digits.ofChar? c = some d := by
  simp only [Char.isDigit, Bool.and_eq_true, decide_eq_true_eq] at h
  exact ⟨_, if_pos h⟩

def Ends (rest : List Char) : Prop := ∀ c ∈ rest.head?, c ≠ '_' ∧ Digits.ofChar? c = none

theorem ends_nil : Ends [] := nofun

theorem ends_point (rest : List Char) : Ends ('.' :: rest) := by
  rintro _ ⟨⟩
  decide

theorem ends_exponent (rest : List Char) : Ends ('e' :: rest) := by
  rintro _ ⟨⟩
  decide

theorem Ends.moreDigits_eq {rest : List Char} (h : Ends rest) : moreDigits rest = ([], rest) := by
  cases rest with
  | nil => rw [moreDigits]
  | cons c rest =>
    obtain ⟨noBar, noDigit⟩ := h c rfl
    rw [moreDigits.eq_3 c _ (fun _ _ bar _ => noBar bar), noDigit]

theorem not_bar_of_isDigit {c : Char} (h : c.isDigit) : c ≠ '_' := by
  rintro rfl
  exact absurd h (by decide)

theorem moreDigits_rest {ds rest : List Char} (h : Digital ds) (hr : Ends rest) :
    (moreDigits (ds ++ rest)).2 = rest := by
  induction ds with
  | nil => rw [List.nil_append, hr.moreDigits_eq]
  | cons c ds ih =>
    obtain ⟨hc, hds⟩ := List.forall_mem_cons.mp h
    obtain ⟨d, hd⟩ := ofChar?_of_isDigit hc
    rw [List.cons_append, moreDigits.eq_3 c _ (fun _ _ bar _ => not_bar_of_isDigit hc bar), hd]
    exact ih hds

theorem digits_run {ds : List Char} (h : Digital ds) (hd : ds ≠ []) (rest : List Char)
    (hr : Ends rest) : ∃ n ns, digits (ds ++ rest) = (n :: ns, rest) := by
  obtain ⟨c, cs, rfl⟩ := List.exists_cons_of_ne_nil hd
  obtain ⟨hc, hcs⟩ := List.forall_mem_cons.mp h
  obtain ⟨n, hn⟩ := ofChar?_of_isDigit hc
  have behind := moreDigits_rest hcs hr
  refine ⟨n, (moreDigits (cs ++ rest)).1, ?_⟩
  simp only [List.cons_append, digits, hn, behind]

theorem digits_digital {ds : List Char} (h : Digital ds) : (digits ds).2 = [] := by
  by_cases hd : ds = []
  · rw [hd, digits]
  · obtain ⟨n, ns, hr⟩ := digits_run h hd [] ends_nil
    rw [List.append_nil] at hr
    rw [hr]

theorem decimal?_simple {cs : List Char} (h : Simple cs) : ∃ d, decimal? cs = some d := by
  cases h with
  | whole h hd =>
    obtain ⟨n, ns, hr⟩ := digits_run h hd [] ends_nil
    rw [List.append_nil] at hr
    simp [decimal?, hr, fraction, exponent?]
  | @pointed ds es h hd he =>
    obtain ⟨n, ns, hr⟩ := digits_run h hd ('.' :: es) (ends_point es)
    simp [decimal?, hr, fraction, digits_digital he, exponent?]

theorem mapM_eq_self {f : Char → Option Char} {cs : List Char} (h : ∀ c ∈ cs, f c = some c) :
    cs.mapM f = some cs := by
  induction cs with
  | nil => rfl
  | cons c cs ih =>
    obtain ⟨hc, hcs⟩ := List.forall_mem_cons.mp h
    simp [List.mapM_cons, hc, ih hcs]

theorem dropWhile_eq_self {f : Char → Bool} {cs : List Char} (h : ∀ c ∈ cs, f c = false) :
    cs.dropWhile f = cs := by
  cases cs with
  | nil => rfl
  | cons c cs => exact List.dropWhile_cons_of_neg (by simp [h c])

def Visible (cs : List Char) : Prop := ∀ c ∈ cs, 33 ≤ c.toNat ∧ c.toNat < 128

instance (cs : List Char) : Decidable (Visible cs) := List.decidableBAll _ cs

theorem Simple.visible {cs : List Char} (h : Simple cs) : Visible cs := by
  intro c hc
  rcases h.mem hc with hd | rfl
  · have := toNat_of_isDigit hd
    omega
  · decide

theorem Visible.plain? {cs : List Char} (h : Visible cs) : cs.mapM plain? = some cs :=
  mapM_eq_self fun c hc => if_pos (h c hc).2

theorem Visible.trimBoth {cs : List Char} (h : Visible cs) : trimBoth isPlainBlank cs = cs := by
  have visible : ∀ c ∈ cs, isPlainBlank c = false := by
    intro c hc
    have := h c hc
    have hs : c ≠ ' ' := by
      rintro rfl
      exact absurd this (by decide)
    simp only [isPlainBlank, beq_eq_false_iff_ne.mpr hs, Bool.false_or, Bool.and_eq_false_iff,
      decide_eq_false_iff_not]
    omega
  rw [LetLang.trimBoth, dropWhile_eq_self visible,
    dropWhile_eq_self (fun c hc => visible c (List.mem_reverse.mp hc)), List.reverse_reverse]

section Head

variable {c : Char} {rest : List Char} (hc : c.isDigit)
include hc

theorem sign_of_isDigit : sign (c :: rest) = (false, c :: rest) := by
  unfold sign
  split
  · rename_i hm
    rw [(List.cons.inj hm).1] at hc
    cases hc
  · rename_i hm
    rw [(List.cons.inj hm).1] at hc
    cases hc
  · rfl

theorem word?_of_isDigit (negative : Bool) : word? negative (c :: rest) = none := by
  have lower : c.toLower = c := by
    have digit := toNat_of_isDigit hc
    unfold Char.toLower
    split
    · rename_i hu
      have upper : 65 ≤ c.toNat := UInt32.le_iff_toNat_le.mp hu.1
      omega
    · rfl
  have differs : ∀ d word, d.isDigit = false →
      String.ofList ((c :: rest).map Char.toLower) ≠ String.ofList (d :: word) := by
    intro d word hd he
    have heads := (List.cons.inj (String.ofList_injective he)).1
    rw [lower] at heads
    rw [heads, hd] at hc
    cases hc
  have hi := differs 'i' ['n', 'f'] rfl
  have hy := differs 'i' ['n', 'f', 'i', 'n', 'i', 't', 'y'] rfl
  have hn := differs 'n' ['a', 'n'] rfl
  simp only [word?]
  rw [if_neg (not_or.mpr ⟨hi, hy⟩), if_neg hn]

theorem read?_signed {cs : List Char} (h : Visible cs) {negative : Bool}
    (hs : sign cs = (negative, c :: rest)) {d : Decimal} (hd : decimal? (c :: rest) = some d) :
    read? cs = some (.ofDecimal negative d) := by
  simp [read?, h.plain?, h.trimBoth, hs, word?_of_isDigit hc, hd]

end Head

theorem read?_of_decimal? {cs : List Char} (h : Simple cs) {d : Decimal} (hd : decimal? cs = some d) :
    read? cs = some (.ofDecimal false d) := by
  obtain ⟨c, rest, rfl, hc⟩ := h.head
  exact read?_signed hc h.visible (sign_of_isDigit hc) hd

theorem read?_simple {cs : List Char} (h : Simple cs) : ∃ x, read? cs = some x := by
  obtain ⟨d, hd⟩ := decimal?_simple h
  exact ⟨_, read?_of_decimal? h hd⟩

end LetLang.Numeral
