import LetLang.Token
import Mathlib.Data.List.DropRight

namespace LetLang.Position

def behind (front : List Char) : Position where
  line := 1 + front.count '\n'
  col := 1 + (front.rtakeWhile (· ≠ '\n')).length

def ofOffset (source : List Char) (offset : Nat) : Position := behind (source.take offset)

theorem behind_concat (front : List Char) (c : Char) :
    behind (front ++ [c]) = (behind front).after c := by
  by_cases hc : c = '\n'
  · subst hc
    have noTail : (front ++ ['\n']).rtakeWhile (· ≠ '\n') = [] :=
      List.rtakeWhile_concat_neg _ _ _ (by simp)
    simp only [behind, after, noTail, List.count_append, List.count_singleton_self, if_true,
      List.length_nil, Position.mk.injEq]
    omega
  · have tail : (front ++ [c]).rtakeWhile (· ≠ '\n') = front.rtakeWhile (· ≠ '\n') ++ [c] :=
      List.rtakeWhile_concat_pos _ _ _ (by simpa using hc)
    have same : (front ++ [c]).count '\n' = front.count '\n' := by
      simp [hc]
    simp only [behind, after, tail, same, if_neg hc, List.length_append, List.length_singleton,
      Position.mk.injEq, true_and]
    omega

theorem behind_append (front cs : List Char) :
    behind (front ++ cs) = (behind front).afterAll cs := by
  induction cs generalizing front with
  | nil => rw [List.append_nil, afterAll_nil]
  | cons c cs ih =>
    rw [afterAll_cons, ← behind_concat, ← ih, List.append_assoc, List.singleton_append]

theorem start_afterAll (front : List Char) : start.afterAll front = behind front :=
  (behind_append [] front).symm

theorem ofOffset_length (front rest : List Char) :
    ofOffset (front ++ rest) front.length = behind front := by
  rw [ofOffset, List.take_left]

theorem ofOffset_end (source : List Char) : ofOffset source source.length = behind source := by
  rw [ofOffset, List.take_length]

end LetLang.Position
