import LetLang.Diagnostic.Excerpt

namespace LetLang

namespace Span

def width (line : List Char) (indent length : Nat) : Nat :=
  min length (max (line.length - indent) 1)

variable {line : List Char} {col : Int} {length : Nat}

theorem offset_start (hc : 1 ≤ col) :
    offset line (within line col length).start = (col - 1).toNat := by
  have nonneg : ¬ col - 1 < 0 := by omega
  rw [within, offset, if_neg nonneg]

theorem stop_within (hc : 1 ≤ col) :
    (within line col length).stop =
      (within line col length).start + (width line (col - 1).toNat length : Nat) := by
  simp only [within, width]
  omega

theorem offset_stop (hc : 1 ≤ col) :
    offset line (within line col length).stop =
      (col - 1).toNat + width line (col - 1).toNat length := by
  have start : (within line col length).start = ((col - 1).toNat : Int) := by
    simp only [within]
    omega
  have nonneg : ¬ (within line col length).stop < 0 := by
    rw [stop_within hc, start]
    omega
  rw [offset, if_neg nonneg, stop_within hc, start]
  omega

theorem part_within (hc : 1 ≤ col) :
    (within line col length).part line =
      (line.drop (col - 1).toNat).take (width line (col - 1).toNat length) := by
  rw [part, offset_start hc, offset_stop hc, List.drop_take, Nat.add_sub_cancel_left]

theorem parts_within (line : List Char) (hc : 1 ≤ col) (length : Nat) :
    (within line col length).before line ++ (within line col length).part line ++
      (within line col length).behind line = line := by
  have front := List.take_append_drop (col - 1).toNat line
  have rest := List.take_append_drop (width line (col - 1).toNat length) (line.drop (col - 1).toNat)
  rw [List.drop_drop] at rest
  rw [before, part_within hc, behind, offset_start hc, offset_stop hc, List.append_assoc, rest,
    front]

theorem mark_within (hc : 1 ≤ col) :
    (within line col length).mark =
      '^' :: List.replicate (width line (col - 1).toNat length - 1) '~' := by
  rw [mark, stop_within hc]
  congr 2
  omega

end Span

namespace Excerpt

open LetLang.Span

theorem text_plain {p : Painter} (hp : p.colored = false) (line : List Char) {col : Int}
    (hc : 1 ≤ col) (length : Nat) :
    text p line col length =
      "  " ++ String.ofList line ++ "\n" ++ "  " ++
        String.ofList (List.replicate (col - 1).toNat ' ') ++
        String.ofList ('^' :: List.replicate (width line (col - 1).toNat length - 1) '~') := by
  have whole : lineRow p line (within line col length) = "  " ++ String.ofList line := by
    have parts := congrArg String.ofList (parts_within line hc length)
    rw [String.ofList_append, String.ofList_append, String.append_assoc] at parts
    rw [lineRow, p.uncolored hp, String.append_assoc, String.append_assoc, parts]
    rfl
  have below : markRow p (within line col length) =
      "  " ++ String.ofList (List.replicate (col - 1).toNat ' ') ++
        String.ofList ('^' :: List.replicate (width line (col - 1).toNat length - 1) '~') := by
    rw [markRow, p.uncolored hp, mark_within hc]
    rfl
  rw [text, whole, below]
  simp only [String.append_assoc]

end Excerpt

end LetLang
