import LetLang.Proofs.Evaluation.Sequencing
import LetLang.Proofs.Grammar.Shapes

namespace LetLang

inductive EvalFault.Foreseen : EvalFault → Prop where
  | name (fault : NameFault) : Foreseen (.name fault)
  | invalidTarget (kind : Kind) : Foreseen (.invalidTarget kind)
  | operandTypes (operator left right : String) : Foreseen (.operandTypes operator left right)

namespace Evaluation

variable {α β : Type}

def Guarded (m : Evaluation α) : Prop :=
  ∀ e fault, (m e).result = .error fault → fault.Foreseen

theorem Guarded.pure (a : α) : Guarded (pure a) := fun _ _ h => by cases h

theorem Guarded.fail {fault : EvalFault} (h : fault.Foreseen) :
    Guarded (fail fault : Evaluation α) := by
  rintro e _ ⟨⟩
  exact h

theorem Guarded.bind {m : Evaluation α} {f : α → Evaluation β} (hm : Guarded m)
    (hf : ∀ a, Guarded (f a)) : Guarded (m >>= f) := by
  intro e fault h
  cases hr : (m e).result with
  | ok a =>
    rw [bind_of_ok hr] at h
    exact hf a _ fault h
  | error fault' =>
    rw [bind_of_error hr] at h
    cases h
    exact hm e fault hr

theorem Guarded.lookup (name : String) : Guarded (lookup name) := by
  intro e fault h
  unfold Evaluation.lookup at h
  cases hl : e.lookup name with
  | ok v => rw [hl] at h; cases h
  | error fault' => rw [hl] at h; cases h; exact .name fault'

theorem Guarded.declare (name : String) (value : Value) (constant : Bool) :
    Guarded (declare name value constant) := by
  intro e fault h
  unfold Evaluation.declare at h
  split at h
  · cases h
  · cases h
    exact .name _

theorem Guarded.assign (name : String) (value : Value) : Guarded (assign name value) := by
  intro e fault h
  unfold Evaluation.assign at h
  split at h
  · cases h
  · cases h
    exact .name _

theorem Guarded.operate {operator : String} (h : ∃ f, Operator.operation? operator = some f)
    (left right : Value) : Guarded (operate operator left right) := by
  obtain ⟨f, hf⟩ := h
  unfold Evaluation.operate
  split
  · rw [hf]
    exact .pure _
  · exact .fail (.operandTypes _ _ _)

theorem Guarded.arm {kind : Kind} (h : kind ∈ Dispatch.standard.evaluated) {m : Evaluation Value}
    (hm : Guarded m) : Guarded (Dispatch.standard.arm kind m) := by
  intro e fault hf
  rw [(Dispatch.arm_outcome h m e).1] at hf
  exact hm e fault hf

end Evaluation

open Evaluation

theorem Evaluation.Guarded.assignment {value : Node} (target : Node)
    (hv : Guarded (evaluate .standard value)) :
    Guarded (evaluate .standard (.assignment target value)) := by
  rcases evaluate_assignment_cases .standard target value with ⟨name, assigns⟩ | refused
  · rw [assigns]
    exact .arm (by decide) (hv.bind fun _ => .assign _ _)
  · rw [refused]
    exact .arm (by decide) (.fail (.invalidTarget _))

mutual

theorem Term.guarded {n : Node} : Term n → Guarded (evaluate .standard n)
  | .identifier name => by
    rw [evaluate]
    exact .arm (by decide) (.lookup name)
  | .number x => by
    rw [evaluate]
    exact .arm (by decide) (.pure _)
  | .assignment _ hv => .assignment _ hv.guarded
  | .binary hl hr ho => by
    rw [evaluate]
    exact .arm (by decide) (hl.guarded.bind fun x => hr.guarded.bind fun y => .operate ho x y)
  | .object h => by
    rw [evaluate]
    exact .arm (by decide) ((h.guarded []).bind fun _ => .pure _)

theorem Entries.guarded {ps : List Node} : Entries ps → ∀ fields,
    Guarded (evaluateFields .standard fields ps)
  | .nil, fields => by
    rw [evaluateFields]
    exact .pure _
  | .bare h, fields => by
    rw [evaluateFields, evaluateEntry]
    exact ((Guarded.lookup _).bind fun _ => .pure _).bind fun entry => h.guarded _
  | .valued hv h, fields => by
    rw [evaluateFields, evaluateEntry]
    exact (hv.guarded.bind fun _ => .pure _).bind fun entry => h.guarded _

end

theorem Command.guarded {n : Node} (h : Command n) : Guarded (evaluate .standard n) := by
  cases h with
  | bare name =>
    rw [evaluate]
    exact .arm (by decide) (.declare name .null false)
  | valued h =>
    rw [evaluate]
    exact .arm (by decide) (h.guarded.bind fun _ => .declare _ _ _)
  | term h => exact h.guarded

theorem evaluateAll_guarded {ns : List Node} (h : ∀ n ∈ ns, Command n) (last : Value) :
    Guarded (evaluateAll .standard last ns) := by
  induction ns generalizing last with
  | nil =>
    rw [evaluateAll_nil]
    exact .pure last
  | cons n ns ih =>
    obtain ⟨hn, hns⟩ := List.forall_mem_cons.mp h
    rw [evaluateAll_cons]
    exact hn.guarded.bind fun v => ih hns v

end LetLang
