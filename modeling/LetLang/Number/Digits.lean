namespace LetLang.Digits

def appendTo (n : Nat) (ds : List Nat) : Nat := ds.foldl (fun n d => 10 * n + d) n

def value (ds : List Nat) : Nat := appendTo 0 ds

def pushFront : Nat → Nat → List Nat → List Nat
  | 0, _, rest => rest
  | steps + 1, n, rest =>
    if n < 10 then n :: rest else pushFront steps (n / 10) (n % 10 :: rest)

def ofNat (n : Nat) : List Nat := pushFront (n.log2 + 1) n []

theorem appendTo_cons (n d : Nat) (ds : List Nat) :
    appendTo n (d :: ds) = appendTo (10 * n + d) ds := rfl

theorem appendTo_append (n : Nat) (ds es : List Nat) :
    appendTo n (ds ++ es) = appendTo (appendTo n ds) es := by
  simp [appendTo]

theorem value_pushFront {steps n : Nat} (h : n < Nat.pow 2 steps) (rest : List Nat) :
    value (pushFront steps n rest) = appendTo n rest := by
  induction steps generalizing n rest with
  | zero =>
    have : n = 0 := by simpa using h
    subst this
    rfl
  | succ steps ih =>
    simp only [pushFront]
    split
    · simp [value, appendTo_cons]
    · have shorter : n / 10 < Nat.pow 2 steps := by
        simp only [Nat.pow_eq, Nat.pow_succ] at h ⊢
        omega
      rw [ih shorter, appendTo_cons]
      congr 1
      omega

theorem value_ofNat (n : Nat) : value (ofNat n) = n :=
  value_pushFront Nat.lt_log2_self []

theorem pushFront_lt {steps n : Nat} {rest : List Nat} (h : ∀ d ∈ rest, d < 10) :
    ∀ d ∈ pushFront steps n rest, d < 10 := by
  induction steps generalizing n rest with
  | zero => exact h
  | succ steps ih =>
    simp only [pushFront]
    split
    · intro d hd
      rcases List.mem_cons.mp hd with rfl | hd
      · assumption
      · exact h d hd
    · apply ih
      intro d hd
      rcases List.mem_cons.mp hd with rfl | hd
      · exact Nat.mod_lt _ (by decide)
      · exact h d hd

theorem ofNat_lt {n d : Nat} (h : d ∈ ofNat n) : d < 10 :=
  pushFront_lt (by simp) d h

def char (d : Nat) : Char := Char.ofNat ('0'.toNat + d)

def ofChar? (c : Char) : Option Nat :=
  if '0' ≤ c ∧ c ≤ '9' then some (c.toNat - '0'.toNat) else none

theorem ofChar?_char {d : Nat} (h : d < 10) : ofChar? (char d) = some d := by
  have : ∀ d : Fin 10, ofChar? (char d) = some d.val := by decide
  exact this ⟨d, h⟩

def text (n : Nat) : List Char := (ofNat n).map char

end LetLang.Digits
