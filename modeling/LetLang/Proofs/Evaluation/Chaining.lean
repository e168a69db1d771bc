import LetLang.Proofs.Environment.Overwriting
import LetLang.Proofs.Evaluation.Sequencing

namespace LetLang

def Node.chained (names : List String) (value : Node) : Node :=
  names.foldr (fun name n => .assignment (.identifier name) n) value

inductive ChainEnds (names : List String) (o : Outcome Value) : Outcome Value → Prop where
  | failed {fault : EvalFault} (h : o.result = .error fault) : ChainEnds names o o
  | assigned {v : Value} {e : Environment} (h : o.result = .ok v)
      (mutable : ∀ name ∈ names, o.environment.isConstant name = .ok false)
      (overwritten : o.environment.Overwritten names v e) :
      ChainEnds names o
        ⟨.ok v, e, o.log ++ List.replicate names.length (.evaluated .assignment v)⟩
  | refused {v : Value} {e : Environment} {front back : List String} {name : String}
      {fault : NameFault} (h : o.result = .ok v) (split : names = front ++ name :: back)
      (mutable : ∀ other ∈ back, o.environment.isConstant other = .ok false)
      (refuses : o.environment.Refuses name fault)
      (overwritten : o.environment.Overwritten back v e) :
      ChainEnds names o
        ⟨.error (.name fault), e, o.log ++ List.replicate back.length (.evaluated .assignment v)⟩

theorem ChainEnds.succeeds_iff {names : List String} {o o' : Outcome Value}
    (h : ChainEnds names o o') : (∃ v, o'.result = .ok v) ↔
      (∃ v, o.result = .ok v) ∧ ∀ name ∈ names, o.environment.isConstant name = .ok false := by
  cases h with
  | failed failed =>
    rw [failed]
    constructor
    · rintro ⟨_, ⟨⟩⟩
    · rintro ⟨⟨_, ⟨⟩⟩, _⟩
  | assigned value mutable _ => exact ⟨fun _ => ⟨⟨_, value⟩, mutable⟩, fun _ => ⟨_, rfl⟩⟩
  | @refused _ _ front back name _ value split mutable refuses _ =>
    constructor
    · rintro ⟨_, ⟨⟩⟩
    · rintro ⟨_, all⟩
      have listed : name ∈ names := split ▸ List.mem_append_right front List.mem_cons_self
      exact absurd (all name listed) refuses.not_mutable

section

variable {name : String} {value : Node} {e e' : Environment} {v : Value}

theorem assignment_of_error {fault : EvalFault}
    (h : (evaluate .standard value e).result = .error fault) :
    evaluate .standard (.assignment (.identifier name) value) e = evaluate .standard value e := by
  have stops := Evaluation.bind_of_error (f := Evaluation.assign name) h
  rw [evaluate_assignment_name, Dispatch.arm_of_error (by decide) (by rw [stops]), stops, ← h]

theorem assignment_of_assigned (h : (evaluate .standard value e).result = .ok v)
    (assigned : (evaluate .standard value e).environment.assign name v = .ok e') :
    evaluate .standard (.assignment (.identifier name) value) e =
      ⟨.ok v, e', (evaluate .standard value e).log ++ [.evaluated .assignment v]⟩ := by
  have writes := Evaluation.bind_of_ok (f := Evaluation.assign name) h
  simp only [Evaluation.assign, assigned, List.append_nil] at writes
  rw [evaluate_assignment_name, Dispatch.arm_of_ok (by decide) (by rw [writes]), writes]

theorem assignment_of_refused {fault : NameFault}
    (h : (evaluate .standard value e).result = .ok v)
    (refused : (evaluate .standard value e).environment.assign name v = .error fault) :
    evaluate .standard (.assignment (.identifier name) value) e =
      ⟨.error (.name fault), (evaluate .standard value e).environment,
        (evaluate .standard value e).log⟩ := by
  have stops := Evaluation.bind_of_ok (f := Evaluation.assign name) h
  simp only [Evaluation.assign, refused, List.append_nil] at stops
  rw [evaluate_assignment_name, Dispatch.arm_of_error (by decide) (by rw [stops]), stops]

end

theorem chained_ends (names : List String) (n : Node) (e : Environment) :
    ChainEnds names (evaluate .standard n e) (evaluate .standard (n.chained names) e) := by
  induction names with
  | nil =>
    cases hr : (evaluate .standard n e).result with
    | error fault => exact .failed hr
    | ok v =>
      have whole := ChainEnds.assigned hr (List.forall_mem_nil _) (.refl v _)
      rwa [List.length_nil, List.replicate_zero, List.append_nil, ← hr] at whole
  | cons name names ih =>
    rw [Node.chained, List.foldr_cons, ← Node.chained]
    generalize hp : evaluate .standard (n.chained names) e = p at ih
    cases ih with
    | failed h =>
      rw [assignment_of_error (hp ▸ h), hp]
      exact .failed h
    | @refused v e' front back other fault h split mutable refuses overwritten =>
      rw [assignment_of_error (by rw [hp]), hp]
      have longer : name :: names = (name :: front) ++ other :: back := congrArg _ split
      exact .refused h longer mutable refuses overwritten
    | @assigned v e' h mutable overwritten =>
      have value : (evaluate .standard (n.chained names) e).result = .ok v := by rw [hp]
      have there : (evaluate .standard (n.chained names) e).environment = e' := by rw [hp]
      have same := overwritten.outline
      rcases e'.assign_or_refuses name v with ⟨held, e'', assigned⟩ | ⟨fault, refuses, refused⟩
      · rw [assignment_of_assigned value (there ▸ assigned), hp]
        have further := overwritten.assign assigned
        rw [Environment.isConstant_of_outline same] at held
        have whole := ChainEnds.assigned h (List.forall_mem_cons.mpr ⟨held, mutable⟩) further
        rwa [List.length_cons, List.replicate_succ', ← List.append_assoc] at whole
      · rw [assignment_of_refused value (there ▸ refused), hp]
        have first : name :: names = [] ++ name :: names := rfl
        exact .refused h first mutable (refuses.of_outline same) overwritten

end LetLang
