import LetLang.Proofs.Lexing.Respacing
import LetLang.Text.Lines

namespace LetLang

namespace Lines

def Paired (cs : List Char) : Prop :=
  ∀ front rest, cs = front ++ '\r' :: rest → rest.head? = some '\n'

theorem paired_nil : Paired [] := by
  intro front rest split
  exact absurd split.symm (List.append_ne_nil_of_right_ne_nil front (List.cons_ne_nil _ _))

theorem paired_cons_iff {c : Char} {cs : List Char} :
    Paired (c :: cs) ↔ (c = '\r' → cs.head? = some '\n') ∧ Paired cs := by
  constructor
  · intro h
    refine ⟨?_, ?_⟩
    · rintro rfl
      exact h [] cs rfl
    · intro front rest split
      apply h (c :: front) rest
      rw [split, List.cons_append]
  · rintro ⟨first, others⟩ front rest split
    cases front with
    | nil =>
      obtain ⟨rfl, rfl⟩ := List.cons.inj split
      exact first rfl
    | cons d front =>
      rw [List.cons_append] at split
      exact others front rest (List.cons.inj split).2

instance decidablePaired : (cs : List Char) → Decidable (Paired cs)
  | [] => isTrue paired_nil
  | _ :: cs =>
    have := decidablePaired cs
    decidable_of_iff _ paired_cons_iff.symm

end Lines

theorem Position.after_pair (p : Position) : (p.after '\r').after '\n' = p.after '\n' := rfl

namespace Token

open Lines

variable {S : Position → Position → Prop}

theorem respaced_unify (pair : ∀ p q, S p q → S ((p.after '\r').after '\n') (q.after '\n'))
    (cs : List Char) (alone : Paired cs ∨ ∀ p q, S p q → S (p.after '\r') (q.after '\n')) :
    Respaced S cs (unify cs) := by
  fun_induction unify cs with
  | case1 => exact .nil
  | case2 rest ih =>
    have spaces : ∀ c ∈ ['\r', '\n'], isSpace c := List.all_eq_true.mp rfl
    have space : ∀ c ∈ ['\n'], isSpace c := List.all_eq_true.mp rfl
    refine .swap spaces space pair (ih (alone.imp_left fun paired => ?_))
    exact (paired_cons_iff.mp (paired_cons_iff.mp paired).2).2
  | case3 rest single ih =>
    have space : ∀ c ∈ ['\r'], isSpace c := List.all_eq_true.mp rfl
    have space' : ∀ c ∈ ['\n'], isSpace c := List.all_eq_true.mp rfl
    rcases alone with paired | place
    · obtain ⟨rest', hr⟩ := List.head?_eq_some_iff.mp ((paired_cons_iff.mp paired).1 rfl)
      exact absurd hr (single rest')
    · exact .swap space space' place (ih (.inr place))
  | case4 c rest _ _ ih =>
    refine .keep c (ih (alone.imp_left fun paired => ?_))
    exact (paired_cons_iff.mp paired).2

theorem scanFrom_unify (p q : Position) (cs : List Char) :
    ScansAlike (fun _ _ => True) (scanFrom p cs) (scanFrom q (unify cs)) :=
  scanFrom_respaced (fun _ _ _ _ => trivial)
    (respaced_unify (fun _ _ _ => trivial) cs (.inr fun _ _ _ => trivial)) trivial

theorem scanFrom_unify_paired {cs : List Char} (h : Paired cs) (p : Position) :
    scanFrom p cs = scanFrom p (unify cs) := by
  have respaced : Respaced (· = ·) cs (unify cs) := by
    apply respaced_unify _ cs (.inl h)
    rintro p _ rfl
    exact p.after_pair
  apply ScansAlike.eq
  apply scanFrom_respaced _ respaced rfl
  rintro p _ c rfl
  rfl

end Token

end LetLang
