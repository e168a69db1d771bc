import LetLang.Diagnostic.Excerpt
import LetLang.Proofs.Lexing.Places
import Mathlib.Data.List.TakeWhile

namespace LetLang

namespace Lines

theorem split_cons (c : Char) (cs : List Char) :
    split (c :: cs) = if c = '\n' then [] :: split cs else (split cs).modifyHead (c :: ·) := by
  by_cases hc : c = '\n'
  · rw [split, if_pos hc, if_pos hc]
  · rw [split, if_neg hc, if_neg hc]
    rcases hs : split cs with _ | ⟨line, lines⟩
    · exact absurd hs (split_ne_nil cs)
    · rfl

theorem split_eq_splitOn (cs : List Char) : split cs = cs.splitOn '\n' := by
  induction cs with
  | nil => rfl
  | cons c cs ih =>
    rw [split_cons, List.splitOn_cons_eq_if_modifyHead, ih]
    by_cases hc : c = '\n'
    · rw [if_pos hc, if_pos (beq_iff_eq.mpr hc)]
    · rw [if_neg hc, if_neg (by simpa using hc)]

theorem split_append_lineFeed (us vs : List Char) :
    split (us ++ '\n' :: vs) = split us ++ split vs := by
  rw [split_eq_splitOn, List.splitOn_append_cons_self, ← split_eq_splitOn, ← split_eq_splitOn]

theorem split_of_not_mem {cs : List Char} (h : '\n' ∉ cs) : split cs = [cs] := by
  have joined := List.splitOn_intercalate '\n' (List.forall_mem_singleton.mpr h) (by simp)
  rwa [List.intercalate_singleton, ← split_eq_splitOn] at joined

theorem length_split (cs : List Char) : (split cs).length = cs.count '\n' + 1 := by
  induction cs with
  | nil => rfl
  | cons c cs ih =>
    rw [split_cons]
    by_cases hc : c = '\n'
    · rw [if_pos hc, hc, List.length_cons, ih, List.count_cons_self]
    · rw [if_neg hc, List.length_modifyHead, ih, List.count_cons_of_ne hc]

theorem split_first (cs : List Char) : (split cs)[0]? = some (cs.takeWhile (· ≠ '\n')) := by
  induction cs with
  | nil => rfl
  | cons c cs ih =>
    rw [split_cons]
    by_cases hc : c = '\n'
    · simp [hc]
    · rw [if_neg hc, List.getElem?_modifyHead_zero, ih,
        List.takeWhile_cons_of_pos (by simpa using hc)]
      rfl

theorem split_behind (front rest : List Char) :
    (split (front ++ rest))[front.count '\n']? =
      some (front.rtakeWhile (· ≠ '\n') ++ rest.takeWhile (· ≠ '\n')) := by
  induction front using List.reverseRecOn generalizing rest with
  | nil => exact split_first rest
  | append_singleton front c ih =>
    rw [List.append_assoc, List.singleton_append]
    by_cases hc : c = '\n'
    · subst hc
      have reached : (front ++ ['\n']).count '\n' = (split front).length := by
        rw [length_split, List.count_append, List.count_singleton_self]
      rw [split_append_lineFeed, reached, List.getElem?_append_right (Nat.le_refl _), Nat.sub_self,
        split_first, List.rtakeWhile_concat_neg _ _ _ (by simp), List.nil_append]
    · have inLine : (front ++ [c]).count '\n' = front.count '\n' := by simp [hc]
      rw [inLine, ih, List.takeWhile_cons_of_pos (by simpa using hc),
        List.rtakeWhile_concat_pos _ _ _ (by simpa using hc), List.append_assoc,
        List.singleton_append]

theorem trimEnd_append {p : Char → Bool} {us : List Char} (h : ∀ c ∈ us, p c = false)
    (hne : us ≠ []) (front rest : List Char) :
    trimEnd p (front ++ us ++ rest) = front ++ us ++ trimEnd p rest := by
  have kept : (us.reverse ++ front.reverse).dropWhile p = us.reverse ++ front.reverse := by
    rcases hr : us.reverse with _ | ⟨c, cs⟩
    · exact absurd (List.reverse_eq_nil_iff.mp hr) hne
    · have hc : p c = false := h c (List.mem_reverse.mp (hr ▸ List.mem_cons_self))
      rw [List.cons_append, List.dropWhile_cons_of_neg (by simp [hc])]
  rw [trimEnd, trimEnd, List.reverse_append, List.reverse_append, List.dropWhile_append, kept]
  by_cases hd : (rest.reverse.dropWhile p).isEmpty
  · rw [if_pos hd, List.isEmpty_iff.mp hd]
    simp
  · rw [if_neg hd]
    simp

theorem length_trimEnd_le (p : Char → Bool) (cs : List Char) :
    (trimEnd p cs).length ≤ cs.length := by
  rw [trimEnd, List.length_reverse]
  calc (cs.reverse.dropWhile p).length
      ≤ cs.reverse.length := (List.dropWhile_suffix p).length_le
    _ = cs.length := List.length_reverse

end Lines

open Position Lines

theorem sourceLine_behind (front rest : List Char) :
    sourceLine (front ++ rest) (behind front).line =
      some (trimEnd (· == '\r') (front.rtakeWhile (· ≠ '\n') ++ rest.takeWhile (· ≠ '\n'))) := by
  have positive : 0 < (behind front).line := by
    simp only [behind]
    omega
  have index : ((behind front).line - 1).toNat = front.count '\n' := by
    simp only [behind]
    omega
  rw [sourceLine, if_pos positive, index, split_behind, Option.map_some]

def Position.indent (p : Position) : Nat := (p.col - 1).toNat

theorem indent_behind (front : List Char) :
    (behind front).indent = (front.rtakeWhile (· ≠ '\n')).length := by
  simp only [indent, behind]
  omega

theorem one_le_col_behind (front : List Char) : 1 ≤ (behind front).col := by
  simp only [behind]
  omega

theorem sourceLine_at (front rest : List Char) {text : List Char} (hne : text ≠ [])
    (hs : ∀ c ∈ text, c ≠ '\n' ∧ c ≠ '\r') :
    ∃ row, sourceLine (front ++ text ++ rest) (behind front).line = some row ∧
      (row.drop (behind front).indent).take text.length = text ∧
      (behind front).indent + text.length ≤ row.length := by
  have whole : (text ++ rest).takeWhile (· ≠ '\n') = text ++ rest.takeWhile (· ≠ '\n') :=
    List.takeWhile_append_of_pos fun c hc => by simpa using (hs c hc).1
  have noReturn : ∀ c ∈ text, (c == '\r') = false := fun c hc => by simpa using (hs c hc).2
  refine ⟨front.rtakeWhile (· ≠ '\n') ++ text ++
    trimEnd (· == '\r') (rest.takeWhile (· ≠ '\n')), ?_, ?_, ?_⟩
  · rw [List.append_assoc, sourceLine_behind, whole, ← List.append_assoc,
      trimEnd_append noReturn hne]
  · rw [indent_behind, List.append_assoc, List.drop_left, List.take_left]
  · rw [indent_behind]
    simp only [List.length_append]
    omega

theorem sourceLine_end (source : List Char) :
    ∃ row, sourceLine source (behind source).line = some row ∧
      row.length ≤ (behind source).indent := by
  have line := sourceLine_behind source []
  rw [List.append_nil, List.takeWhile_nil, List.append_nil] at line
  refine ⟨_, line, ?_⟩
  rw [indent_behind]
  exact length_trimEnd_le _ _

end LetLang
