import LetLang.Proofs.Diagnostic.Excerpts
import LetLang.Proofs.Diagnostic.Rows

namespace LetLang

def marked : List Char → List Char → List Char
  | c :: row, m :: below => if m = ' ' then marked row below else c :: marked row below
  | _, _ => []

theorem marked_nil (below : List Char) : marked [] below = [] := by
  cases below <;> rfl

theorem marked_blanks (row : List Char) (n : Nat) (below : List Char) :
    marked row (List.replicate n ' ' ++ below) = marked (row.drop n) below := by
  induction n generalizing row with
  | zero => rfl
  | succ n ih =>
    cases row with
    | nil => rw [List.drop_nil, marked_nil, marked_nil]
    | cons c row =>
      rw [List.replicate_succ, List.cons_append, marked, if_pos rfl, ih, List.drop_succ_cons]

theorem marked_solid (row : List Char) {mark : List Char} (h : ∀ c ∈ mark, c ≠ ' ') :
    marked row mark = row.take mark.length := by
  induction mark generalizing row with
  | nil => cases row <;> rfl
  | cons m mark ih =>
    obtain ⟨hm, hs⟩ := List.forall_mem_cons.mp h
    cases row with
    | nil => rfl
    | cons c row => rw [marked, if_neg hm, ih row hs, List.length_cons, List.take_succ_cons]

namespace Span

variable {line : List Char} {col : Int} {length : Nat}

theorem width_pos (line : List Char) (indent : Nat) (hl : 1 ≤ length) :
    1 ≤ width line indent length :=
  Nat.le_min.mpr ⟨hl, Nat.le_max_right _ 1⟩

theorem before_within (hc : 1 ≤ col) :
    (within line col length).before line = line.take (col - 1).toNat := by
  rw [before, offset_start hc]

theorem length_mark_within (hc : 1 ≤ col) (hl : 1 ≤ length) :
    (within line col length).mark.length = width line (col - 1).toNat length := by
  rw [mark_within hc, List.length_cons, List.length_replicate,
    Nat.sub_add_cancel (width_pos line _ hl)]

theorem eq_of_mem_mark {s : Span} {c : Char} (hc : c ∈ s.mark) : c = '^' ∨ c = '~' :=
  (List.mem_cons.mp hc).imp_right fun tilde => (List.mem_replicate.mp tilde).2

theorem mark_solid (s : Span) : ∀ c ∈ s.mark, c ≠ ' ' := by
  intro c hc
  rcases eq_of_mem_mark hc with rfl | rfl <;> decide

theorem mark_unbroken (s : Span) : '\n' ∉ s.mark := by
  intro feed
  rcases eq_of_mem_mark feed with h | h <;> cases h

theorem part_slice (line : List Char) (hc : 1 ≤ col) (hl : 1 ≤ length) :
    (within line col length).part line =
      (line.drop (col - 1).toNat).take (within line col length).mark.length := by
  rw [length_mark_within hc hl, part_within hc]

theorem blanks_below (hc : 1 ≤ col) :
    [' ', ' '] ++ List.replicate (col - 1).toNat ' ' = List.replicate (col + 1).toNat ' ' := by
  have behindMargin : (col + 1).toNat = 2 + (col - 1).toNat := by omega
  rw [behindMargin, List.replicate_add]
  rfl

theorem part_marked (line : List Char) (hc : 1 ≤ col) (hl : 1 ≤ length) :
    (within line col length).part line =
      marked (' ' :: ' ' :: line)
        (List.replicate (col + 1).toNat ' ' ++ (within line col length).mark) := by
  set mark := (within line col length).mark
  calc (within line col length).part line
      = (line.drop (col - 1).toNat).take mark.length := part_slice line hc hl
    _ = marked (line.drop (col - 1).toNat) mark := (marked_solid _ (mark_solid _)).symm
    _ = marked line (List.replicate (col - 1).toNat ' ' ++ mark) := (marked_blanks ..).symm
    _ = marked (' ' :: ' ' :: line) (List.replicate (col + 1).toNat ' ' ++ mark) := by
      rw [← blanks_below hc]
      rfl

end Span

namespace Excerpt

open LetLang.Span

theorem toList_text {p : Painter} (hp : p.colored = false) {line : List Char} {col : Int}
    (hc : 1 ≤ col) (length : Nat) :
    (text p line col length).toList =
      (' ' :: ' ' :: line) ++ '\n' ::
        (List.replicate (col + 1).toNat ' ' ++ (within line col length).mark) := by
  rw [text_plain hp line hc, mark_within hc, ← blanks_below hc]
  simp [String.toList_append]

theorem split_text {p : Painter} (hp : p.colored = false) {line : List Char}
    (unbroken : '\n' ∉ line) {col : Int} (hc : 1 ≤ col) (length : Nat) :
    Lines.split (text p line col length).toList =
      [' ' :: ' ' :: line,
        List.replicate (col + 1).toNat ' ' ++ (within line col length).mark] := by
  have above : '\n' ∉ ' ' :: ' ' :: line := by simpa using unbroken
  have below : '\n' ∉ List.replicate (col + 1).toNat ' ' ++ (within line col length).mark := by
    rw [List.mem_append, not_or]
    exact ⟨by simp, mark_unbroken _⟩
  rw [toList_text hp hc, Lines.split_append_lineFeed, Lines.split_of_not_mem above,
    Lines.split_of_not_mem below, List.singleton_append]

theorem text_rows {line : List Char} (unbroken : '\n' ∉ line) {col : Int} (hc : 1 ≤ col)
    {length : Nat} (hl : 1 ≤ length) :
    ∃ (front part behind mark : List Char) (tildes : Nat),
      (tildes : Int) = min (length : Int) (max (line.length - col + 1) 1) - 1 ∧
      mark = '^' :: List.replicate tildes '~' ∧
      (∀ p : Painter, p.colored = false → Lines.split (text p line col length).toList =
        [' ' :: ' ' :: line, List.replicate (col + 1).toNat ' ' ++ mark]) ∧
      front ++ part ++ behind = line ∧
      front = line.take (col - 1).toNat ∧
      part = (line.drop (col - 1).toNat).take mark.length ∧
      part = marked (' ' :: ' ' :: line) (List.replicate (col + 1).toNat ' ' ++ mark) ∧
      ∀ p : Painter, text p line col length =
        "  " ++ String.ofList front ++ p.paint .alarm (String.ofList part) ++
          String.ofList behind ++ "\n" ++ String.ofList (List.replicate (col + 1).toNat ' ') ++
          p.paint .alarm (String.ofList mark) := by
  have count : ((width line (col - 1).toNat length - 1 : Nat) : Int) =
      min (length : Int) (max (line.length - col + 1) 1) - 1 := by
    simp only [width]
    omega
  refine ⟨_, _, _, _, _, count, mark_within hc, fun p hp => split_text hp unbroken hc length,
    parts_within line hc length, before_within hc, part_slice line hc hl,
    part_marked line hc hl, ?_⟩
  intro p
  rw [← blanks_below hc, String.ofList_append, text, lineRow, markRow]
  simp only [String.append_assoc]
  rfl

theorem overlong_text_rows :
    '\n' ∉ "x = 12".toList ∧ (1 : Int) ≤ 5 ∧ 1 ≤ 9 ∧
      Lines.split (text .plain "x = 12".toList 5 9).toList =
        ["  x = 12".toList, "      ^~".toList] ∧
      ∀ p : Painter, text p "x = 12".toList 5 9 =
        "  x = " ++ p.paint .alarm "12" ++ "\n      " ++ p.paint .alarm "^~" := by
  have unbroken : '\n' ∉ "x = 12".toList := by decide
  obtain ⟨front, part, behind, mark, tildes, count, rfl, rows, joined, hf, hp, _, styled⟩ :=
    text_rows unbroken (by decide : (1 : Int) ≤ 5) (by decide : 1 ≤ 9)
  have wide : "x = 12".toList.length = 6 := by decide
  obtain rfl : tildes = 1 := by omega
  obtain rfl : front = "x = ".toList := hf
  obtain rfl : part = "12".toList := hp
  obtain rfl : behind = [] := List.append_cancel_left (joined.trans (List.append_nil _).symm)
  have feed (row : String) : row ++ "" ++ "\n" ++ "      " = row ++ "\n      " := by
    rw [String.append_empty, String.append_assoc]
    rfl
  refine ⟨unbroken, by decide, by decide, rows .plain rfl, fun p => (styled p).trans ?_⟩
  exact congrArg (· ++ p.paint .alarm "^~") (feed ("  x = " ++ p.paint .alarm "12"))

example : text .plain "ab".toList 5 3 = "  ab\n      ^" := by rfl

end Excerpt

end LetLang
