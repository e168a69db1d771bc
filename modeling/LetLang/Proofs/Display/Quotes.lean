import LetLang.Text.Quoted
import Mathlib.Logic.Function.Basic

namespace LetLang.Quoted

def hexValue (c : Char) : Nat := if c.isDigit then c.toNat - '0'.toNat else c.toNat - 'a'.toNat + 10

def readHex (cs : List Char) : Nat := cs.foldl (fun n c => 16 * n + hexValue c) 0

theorem hexDigit_mem {d : Nat} (h : d < 16) : hexValue (hexDigit d) = d ∧ hexDigit d ≠ '\n' := by
  have digits : ∀ d : Fin 16, hexValue (hexDigit d) = d ∧ hexDigit d ≠ '\n' := by decide
  exact digits ⟨d, h⟩

theorem length_hex (width n : Nat) : (hex width n).length = width := by
  induction width generalizing n with
  | zero => rfl
  | succ width ih => rw [hex, List.length_append, ih, List.length_singleton]

theorem readHex_hex (width n : Nat) : readHex (hex width n) = n % Nat.pow 16 width := by
  induction width generalizing n with
  | zero => exact (Nat.mod_one n).symm
  | succ width ih =>
    have last := (hexDigit_mem (Nat.mod_lt n (by decide))).1
    have front : readHex (hex width (n / 16) ++ [hexDigit (n % 16)]) =
        16 * readHex (hex width (n / 16)) + hexValue (hexDigit (n % 16)) := List.foldl_append
    rw [hex, front, ih, last, Nat.pow_eq, Nat.pow_eq, Nat.pow_succ', Nat.mod_mul, Nat.add_comm]

theorem newline_not_mem_hex (width n : Nat) : '\n' ∉ hex width n := by
  induction width generalizing n with
  | zero => exact List.not_mem_nil
  | succ width ih =>
    have last := (hexDigit_mem (Nat.mod_lt n (by decide))).2
    rw [hex, List.mem_append, List.mem_singleton, not_or]
    exact ⟨ih _, last.symm⟩

theorem toNat_lt (c : Char) : c.toNat < 0x110000 := by
  rcases c.valid with below | above
  · exact Nat.lt_trans below (by decide)
  · exact above.2

def IsMark (mark : Char) : Prop := mark = '\'' ∨ mark = '"'

inductive Escapes (mark c : Char) : List Char → Prop where
  | marked (h : c = mark ∨ c = '\\') : Escapes mark c ['\\', c]
  | lineFeed (h : c = '\n') : Escapes mark c ['\\', 'n']
  | carriageReturn (h : c = '\r') : Escapes mark c ['\\', 'r']
  | tab (h : c = '\t') : Escapes mark c ['\\', 't']
  | plain (backslash : c ≠ '\\') (lineFeed : c ≠ '\n') : Escapes mark c [c]
  | twoDigits (h : c.toNat < Nat.pow 16 2) : Escapes mark c ('\\' :: 'x' :: hex 2 c.toNat)
  | fourDigits (h : c.toNat < Nat.pow 16 4) : Escapes mark c ('\\' :: 'u' :: hex 4 c.toNat)
  | eightDigits (h : c.toNat < Nat.pow 16 8) : Escapes mark c ('\\' :: 'U' :: hex 8 c.toNat)

theorem numericEscape_escapes (mark c : Char) : Escapes mark c (numericEscape c) := by
  unfold numericEscape
  split
  · exact .twoDigits ‹_›
  · split
    · exact .fourDigits ‹_›
    · exact .eightDigits (Nat.lt_trans (toNat_lt c) (by decide))

theorem escape_escapes (mark c : Char) : Escapes mark c (escape mark c) := by
  unfold escape
  split
  · exact .marked ‹_›
  · rename_i noMark
    split
    · exact .lineFeed ‹_›
    · split
      · exact .carriageReturn ‹_›
      · split
        · exact .tab ‹_›
        · split
          · exact .plain (fun backslash => noMark (.inr backslash)) ‹_›
          · exact numericEscape_escapes mark c

def unescape : List Char → Option (Char × List Char)
  | [] => none
  | '\\' :: 'n' :: rest => some ('\n', rest)
  | '\\' :: 'r' :: rest => some ('\r', rest)
  | '\\' :: 't' :: rest => some ('\t', rest)
  | '\\' :: 'x' :: rest => some (Char.ofNat (readHex (rest.take 2)), rest.drop 2)
  | '\\' :: 'u' :: rest => some (Char.ofNat (readHex (rest.take 4)), rest.drop 4)
  | '\\' :: 'U' :: rest => some (Char.ofNat (readHex (rest.take 8)), rest.drop 8)
  | '\\' :: c :: rest => some (c, rest)
  | c :: rest => some (c, rest)

theorem readHex_take {width : Nat} {c : Char} (h : c.toNat < Nat.pow 16 width)
    (rest : List Char) :
    Char.ofNat (readHex ((hex width c.toNat ++ rest).take width)) = c ∧
      (hex width c.toNat ++ rest).drop width = rest := by
  have length := length_hex width c.toNat
  rw [List.take_left' length, List.drop_left' length, readHex_hex, Nat.mod_eq_of_lt h,
    Char.ofNat_toNat]
  exact ⟨rfl, rfl⟩

theorem unescape_plain {c : Char} (h : c ≠ '\\') (rest : List Char) :
    unescape (c :: rest) = some (c, rest) := by
  unfold unescape
  split <;> simp_all

theorem Escapes.unescape_append {mark c : Char} {cs : List Char} (h : Escapes mark c cs)
    (hm : IsMark mark) (rest : List Char) : unescape (cs ++ rest) = some (c, rest) := by
  cases h with
  | marked h =>
    rcases h with rfl | rfl
    · rcases hm with rfl | rfl <;> rfl
    · rfl
  | lineFeed h | carriageReturn h | tab h =>
    rw [h]
    rfl
  | plain backslash _ => exact unescape_plain backslash rest
  | twoDigits h | fourDigits h | eightDigits h =>
    obtain ⟨value, behind⟩ := readHex_take h rest
    simp only [List.cons_append, unescape, value, behind]

theorem Escapes.newline_not_mem {mark c : Char} {cs : List Char} (h : Escapes mark c cs)
    (hm : IsMark mark) : '\n' ∉ cs := by
  cases h with
  | marked h =>
    rcases h with rfl | rfl
    · rcases hm with rfl | rfl <;> decide
    · decide
  | lineFeed | carriageReturn | tab => decide
  | plain _ lineFeed => simpa using lineFeed.symm
  | twoDigits | fourDigits | eightDigits => simp [newline_not_mem_hex]

theorem escaped_injective {mark : Char} (hm : IsMark mark) :
    Function.Injective fun cs : List Char => cs.flatMap (escape mark) := by
  have read : ∀ c cs, unescape ((c :: cs).flatMap (escape mark)) =
      some (c, cs.flatMap (escape mark)) := fun c cs =>
    (escape_escapes mark c).unescape_append hm _
  intro cs ds same
  dsimp only at same
  induction cs generalizing ds with
  | nil =>
    cases ds with
    | nil => rfl
    | cons d ds =>
      have none := read d ds
      rw [← same] at none
      cases none
  | cons c cs ih =>
    have first := read c cs
    rw [same] at first
    cases ds with
    | nil => cases first
    | cons d ds =>
      rw [read d ds] at first
      obtain ⟨rfl, behind⟩ := Prod.mk.inj (Option.some.inj first)
      rw [ih behind.symm]

theorem isMark_mark (cs : List Char) : IsMark (mark cs) := by
  unfold mark IsMark
  split
  · exact .inr rfl
  · exact .inl rfl

theorem encode_injective : Function.Injective encode := by
  intro cs ds same
  obtain ⟨marks, behind⟩ := List.cons.inj same
  rw [marks] at behind
  exact escaped_injective (isMark_mark ds) (List.append_inj_left' behind rfl)

theorem newline_not_mem_encode (cs : List Char) : '\n' ∉ encode cs := by
  have hm := isMark_mark cs
  have noMark : '\n' ≠ mark cs := by
    rintro h
    rw [← h] at hm
    exact absurd hm (by unfold IsMark; decide)
  simp only [encode, List.mem_cons, List.mem_append, List.mem_flatMap, List.not_mem_nil, or_false,
    not_or, not_exists, not_and]
  exact ⟨noMark, fun c _ => (escape_escapes _ c).newline_not_mem hm, noMark⟩

end LetLang.Quoted

namespace LetLang

theorem quoted_injective : Function.Injective quoted := by
  intro s t same
  exact String.toList_inj.mp (Quoted.encode_injective (String.ofList_injective same))

end LetLang
