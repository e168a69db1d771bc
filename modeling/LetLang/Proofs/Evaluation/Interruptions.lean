import LetLang.Proofs.Environment.Reassignment
import LetLang.Proofs.Evaluation.Faults
import LetLang.Proofs.Evaluation.Locality

namespace LetLang

mutual

theorem Term.undeclared {n : Node} : Term n → ∀ u ∈ n.uses, u.declared? = none
  | .identifier name => by
    intro u hu
    rw [Node.uses, List.mem_singleton] at hu
    rw [hu]
    rfl
  | .number x => by
    intro u hu
    rw [Node.uses] at hu
    cases hu
  | .assignment ht hv => by
    intro u hu
    rcases Node.of_mem_uses_assignment hu with inTarget | inValue | ⟨name, rfl⟩
    · exact ht.undeclared u inTarget
    · exact hv.undeclared u inValue
    · rfl
  | .binary hl hr _ => by
    rw [Node.uses, List.forall_mem_append]
    exact ⟨hl.undeclared, hr.undeclared⟩
  | .object h => by
    rw [Node.uses]
    exact h.undeclared

theorem Entries.undeclared {ps : List Node} : Entries ps → ∀ u ∈ usesAll ps, u.declared? = none
  | .nil => by
    intro u hu
    rw [usesAll] at hu
    cases hu
  | .bare h => by
    rw [usesAll, Node.uses, List.forall_mem_append, List.forall_mem_singleton]
    exact ⟨rfl, h.undeclared⟩
  | .valued hv h => by
    rw [usesAll, Node.uses, List.forall_mem_append]
    exact ⟨hv.undeclared, h.undeclared⟩

end

namespace Evaluation

variable {α β : Type} {names : List String}

def Halts (names : List String) {α : Type} (m : Evaluation α) : Prop :=
  ∀ e fault, (m e).result = .error fault → e.Reassigned names (m e).environment

def Atomic {α : Type} (m : Evaluation α) : Prop :=
  ∀ e fault, (m e).result = .error fault → (m e).environment = e

theorem atomic_declare (name : String) (value : Value) (constant : Bool) :
    Atomic (declare name value constant) := by
  intro e fault h
  cases hd : e.declare name value constant with
  | ok e' =>
    simp only [declare, hd] at h
    cases h
  | error fault => simp only [declare, hd]

theorem atomic_assign (name : String) (value : Value) : Atomic (assign name value) := by
  intro e fault h
  cases ha : e.assign name value with
  | ok e' =>
    simp only [assign, ha] at h
    cases h
  | error fault => simp only [assign, ha]

theorem atomic_fail (fault : EvalFault) : Atomic (fail fault : Evaluation α) := by
  intro e fault' _
  rfl

theorem Preserves.halts {m : Evaluation α} (h : Preserves (Environment.Reassigned names) m) :
    Halts names m := by
  intro e fault _
  exact h e

theorem Atomic.halts {m : Evaluation α} (h : Atomic m) : Halts names m := by
  intro e fault failed
  rw [h e fault failed]
  exact .refl e

theorem Preserves.then {m : Evaluation α} {f : α → Evaluation β}
    (hm : Preserves (Environment.Reassigned names) m) (hf : ∀ a, Atomic (f a)) :
    Halts names (m >>= f) := by
  intro e fault failed
  cases hr : (m e).result with
  | error first =>
    rw [bind_of_error hr]
    exact hm e
  | ok a =>
    rw [bind_of_ok hr] at failed ⊢
    rw [hf a _ fault failed]
    exact hm e

theorem Halts.arm {kind : Kind} {d : Dispatch} (h : kind ∈ d.evaluated) {m : Evaluation Value}
    (hm : Halts names m) : Halts names (d.arm kind m) := by
  intro e fault failed
  obtain ⟨result, environment⟩ := Dispatch.arm_outcome h m e
  rw [result] at failed
  rw [environment]
  exact hm e fault failed

end Evaluation

open Evaluation

theorem kept_preservation :
    Preservation (fun u => u.declared? = none) (fun e e' => KeptAll e.scopes e'.scopes) where
  refl e := .refl e.scopes
  trans := .trans
  declare hu := by cases hu
  assign _ h := Environment.assign_kept h

theorem evaluate_reassigns (d : Dispatch) {n : Node} (h : ∀ u ∈ n.uses, u.declared? = none) :
    Preserves (Environment.Reassigned n.assigned) (evaluate d n) := by
  intro e
  have kept := (preserves_closed kept_preservation).evaluate d n h e
  have spares : Spares (· ∉ n.assigned) (evaluate d n) := by
    refine (spares_closed _).evaluate d n ?_
    intro u hu name written unassigned
    rw [Use.written?_of_undeclared (h u hu)] at written
    exact unassigned (Node.mem_assigned hu written)
  exact .of_kept kept (spares e)

theorem Term.reassigns {n : Node} (h : Term n) (d : Dispatch) :
    Preserves (Environment.Reassigned n.assigned) (evaluate d n) :=
  evaluate_reassigns d h.undeclared

theorem Term.halts_assignment {target value : Node} (hv : Term value) :
    Halts (Node.assignment target value).nested (evaluate .standard (.assignment target value)) := by
  have inside : value.assigned ⊆ (Node.assignment target value).nested := by
    rw [Node.nested, Node.children, List.flatMap_cons, List.flatMap_singleton]
    exact List.subset_append_right _ _
  have reassigns : Preserves (Environment.Reassigned (Node.assignment target value).nested)
      (evaluate .standard value) := by
    intro e
    exact (hv.reassigns .standard e).mono inside
  rcases evaluate_assignment_cases .standard target value with ⟨name, assigns⟩ | refused
  · rw [assigns]
    exact .arm (by decide) (reassigns.then (atomic_assign name))
  · rw [refused]
    exact .arm (by decide) (atomic_fail _).halts

theorem Command.halts {n : Node} (h : Command n) : Halts n.nested (evaluate .standard n) := by
  cases h with
  | bare name =>
    rw [evaluate]
    exact .arm (by decide) (atomic_declare name .null false).halts
  | @valued name value constant hv =>
    have inside : (Node.declaration name (some value) constant).nested = value.assigned := by
      rw [Node.nested, Node.children, Option.toList_some, List.flatMap_singleton]
    rw [evaluate, inside]
    exact .arm (by decide) ((hv.reassigns .standard).then fun v => atomic_declare name v constant)
  | term h =>
    by_cases root : n.kind = .assignment
    · cases h with
      | assignment _ hv => exact hv.halts_assignment
      | _ => cases root
    · rw [← Node.assigned_eq_nested root]
      exact (h.reassigns .standard).halts

theorem evaluateAll_interrupted (d : Dispatch) {body : List Node} {last : Value} {e : Environment}
    {fault : EvalFault} (h : (evaluateAll d last body e).result = .error fault) :
    ∃ done next rest v, body = done ++ next :: rest ∧
      (evaluateAll d last done e).result = .ok v ∧
      (evaluate d next (evaluateAll d last done e).environment).result = .error fault ∧
      (evaluate d next (evaluateAll d last done e).environment).environment =
        (evaluateAll d last body e).environment := by
  induction body generalizing last e with
  | nil =>
    rw [evaluateAll_nil] at h
    cases h
  | cons n ns ih =>
    rw [evaluateAll_cons] at h ⊢
    cases hn : (evaluate d n e).result with
    | error first =>
      rw [bind_of_error hn] at h ⊢
      obtain rfl : first = fault := Except.error.inj h
      refine ⟨[], n, ns, last, rfl, ?_⟩
      rw [evaluateAll_nil]
      exact ⟨rfl, hn, rfl⟩
    | ok v =>
      rw [bind_of_ok hn] at h ⊢
      obtain ⟨done, next, rest, w, rfl, succeeded, failed, left⟩ := ih h
      refine ⟨n :: done, next, rest, w, rfl, ?_⟩
      rw [evaluateAll_cons, bind_of_ok hn]
      exact ⟨succeeded, failed, left⟩

end LetLang
