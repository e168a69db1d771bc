import LetLang.Proofs.Environment.Outlines
import LetLang.Proofs.Evaluation.Closure

namespace LetLang

variable {α β : Type}

def Outcome.Mismatched (o : Outcome α) : Prop :=
  ∃ operator left right, o.result = .error (.operandTypes operator left right)

theorem Outcome.not_mismatched {o : Outcome α} {fault : NameFault}
    (h : o.result = .error (.name fault)) : ¬ o.Mismatched := by
  rintro ⟨operator, left, right, failed⟩
  rw [h] at failed
  cases failed

inductive Outcome.Alike (o o' : Outcome α) : Prop where
  | values {a a' : α} (h : o.result = .ok a) (h' : o'.result = .ok a')
      (outline : o.environment.outline = o'.environment.outline)
  | faults {fault : EvalFault} (h : o.result = .error fault) (h' : o'.result = .error fault)
      (outline : o.environment.outline = o'.environment.outline)
  | mismatched (h : o.Mismatched ∨ o'.Mismatched)

namespace Evaluation

def Alike (m m' : Evaluation α) : Prop :=
  ∀ e e' : Environment, e.outline = e'.outline → (m e).Alike (m' e')

theorem alike_lookup (name : String) : Alike (lookup name) (lookup name) := by
  intro e e' h
  have flags := Environment.constant_eq_of_outline h name
  cases found : e.find? name with
  | none =>
    rw [found, Option.map_none] at flags
    have absent := Option.map_eq_none_iff.mp flags.symm
    have refused : (lookup name e).result = .error (.name (.unbound name)) := by
      simp only [lookup, Environment.lookup, found, Except.mapError]
    have refused' : (lookup name e').result = .error (.name (.unbound name)) := by
      simp only [lookup, Environment.lookup, absent, Except.mapError]
    exact .faults refused refused' h
  | some b =>
    rw [found, Option.map_some] at flags
    obtain ⟨b', found', _⟩ := Option.map_eq_some_iff.mp flags.symm
    have given : (lookup name e).result = .ok b.value := by
      simp only [lookup, Environment.lookup, found, Except.mapError]
    have given' : (lookup name e').result = .ok b'.value := by
      simp only [lookup, Environment.lookup, found', Except.mapError]
    exact .values given given' h

theorem alike_declare (name : String) (v v' : Value) (constant : Bool) :
    Alike (declare name v constant) (declare name v' constant) := by
  intro e e' h
  have names := Environment.names_innermost_of_outline h
  rcases Environment.declare_decided (iff_of_eq (congrArg (name ∈ ·) names)) v v' constant with
    ⟨fault, refused, refused'⟩ | ⟨unbound, unbound', declared, declared'⟩
  · simp only [declare, refused, refused']
    exact .faults rfl rfl h
  · simp only [declare, declared, declared']
    refine .values rfl rfl ?_
    rw [Environment.outline_cons, Environment.outline_cons, List.cons.injEq] at h ⊢
    rw [Scope.outline_add, Scope.outline_add, h.1, h.2]
    exact ⟨rfl, rfl⟩

theorem alike_assign (name : String) (v v' : Value) : Alike (assign name v) (assign name v') := by
  intro e e' h
  have flags := Environment.constant_eq_of_outline h name
  rcases Environment.assign_decided flags v v' with ⟨fault, refused, refused'⟩ |
    ⟨a, a', assigned, assigned'⟩
  · simp only [assign, refused, refused']
    exact .faults rfl rfl h
  · simp only [assign, assigned, assigned']
    refine .values rfl rfl ?_
    rw [Environment.outline_assign assigned, Environment.outline_assign assigned', h]

theorem operate_cases (operator : String) (x y : Value) (e : Environment) :
    (∃ a b, x = .number a ∧ y = .number b) ∨ (operate operator x y e).Mismatched := by
  cases x with
  | number a =>
    cases y with
    | number b => exact .inl ⟨a, b, rfl, rfl⟩
    | _ => exact .inr ⟨operator, _, _, rfl⟩
  | _ => exact .inr ⟨operator, _, _, rfl⟩

theorem alike_operate (operator : String) (x y x' y' : Value) :
    Alike (operate operator x y) (operate operator x' y') := by
  intro e e' h
  rcases operate_cases operator x y e with ⟨a, b, rfl, rfl⟩ | mismatched
  · rcases operate_cases operator x' y' e' with ⟨a', b', rfl, rfl⟩ | mismatched
    · rw [operate, operate]
      cases Operator.operation? operator with
      | some f => exact .values rfl rfl h
      | none => exact .faults rfl rfl h
    · exact .mismatched (.inr mismatched)
  · exact .mismatched (.inl mismatched)

theorem mismatched_bind {m : Evaluation α} {e : Environment} (h : (m e).Mismatched)
    (f : α → Evaluation β) : ((m >>= f) e).Mismatched := by
  obtain ⟨operator, left, right, failed⟩ := h
  rw [bind_of_error failed]
  exact ⟨operator, left, right, rfl⟩

theorem Alike.bind {m m' : Evaluation α} {f f' : α → Evaluation β} (hm : Alike m m')
    (hf : ∀ a a', Alike (f a) (f' a')) : Alike (m >>= f) (m' >>= f') := by
  intro e e' h
  cases hm e e' h with
  | @values a a' result result' outline =>
    rw [bind_of_ok result, bind_of_ok result']
    -- what comes behind decides, as only the log in front of it is new
    cases hf a a' _ _ outline with
    | values last last' outline => exact .values last last' outline
    | faults last last' outline => exact .faults last last' outline
    | mismatched stray => exact .mismatched stray
  | faults result result' outline =>
    rw [bind_of_error result, bind_of_error result']
    exact .faults rfl rfl outline
  | mismatched stray =>
    apply Outcome.Alike.mismatched
    exact stray.imp (mismatched_bind · f) (mismatched_bind · f')

theorem alike_coupled : CoupledOn (fun _ => True) Alike where
  pure _ _ _ _ h := .values rfl rfl h
  fail _ _ _ h := .faults rfl rfl h
  emit _ _ _ _ _ h := .values rfl rfl h
  bind := Alike.bind
  lookup name _ := alike_lookup name
  declare name v v' constant _ := alike_declare name v v' constant
  assign name v v' _ := alike_assign name v v'
  operate := alike_operate

end Evaluation

theorem evaluate_alike (d : Dispatch) (n : Node) {e e' : Environment} (h : e.outline = e'.outline) :
    (evaluate d n e).Alike (evaluate d n e') :=
  Evaluation.alike_coupled.evaluate d n (fun _ _ => trivial) e e' h

theorem evaluate_indifferent (d : Dispatch) (n : Node) {e e' : Environment}
    (h : e.outline = e'.outline) (hm : ¬ (evaluate d n e).Mismatched)
    (hm' : ¬ (evaluate d n e').Mismatched) :
    ((∃ v v', (evaluate d n e).result = .ok v ∧ (evaluate d n e').result = .ok v') ∨
      ∃ fault, (evaluate d n e).result = .error fault ∧ (evaluate d n e').result = .error fault) ∧
    (evaluate d n e).environment.outline = (evaluate d n e').environment.outline := by
  cases evaluate_alike d n h with
  | values result result' outline => exact ⟨.inl ⟨_, _, result, result'⟩, outline⟩
  | faults result result' outline => exact ⟨.inr ⟨_, result, result'⟩, outline⟩
  | mismatched stray => exact absurd stray (not_or.mpr ⟨hm, hm'⟩)

def guarded (v v' : Value) : Environment where
  innermost := .ofBindings [⟨"x", v, false⟩] (List.nodup_singleton _)
  enclosing := [.ofBindings [⟨"y", v', true⟩] (List.nodup_singleton _)]

def trespassing : Node :=
  .program [.declaration "z" (some (.object [.property "k" (some (.assignment (.identifier "x")
    (.identifier "y")))])) false, .assignment (.identifier "y") (.identifier "z")]

theorem trespassing_indifferent :
    (guarded .null (.boolean true)).outline = (guarded (.object []) .null).outline ∧
    (evaluate .standard trespassing (guarded (.object []) .null)).result =
      .error (.name (.constant "y")) ∧
    (evaluate .standard trespassing (guarded (.object []) .null)).environment.outline =
      [[("x", false), ("z", false)], [("y", true)]] := by
  have same : (guarded .null (.boolean true)).outline = (guarded (.object []) .null).outline := rfl
  have refused : (evaluate .standard trespassing (guarded .null (.boolean true))).result =
      .error (.name (.constant "y")) := by
    rfl
  have refused' : (evaluate .standard trespassing (guarded (.object []) .null)).result =
      .error (.name (.constant "y")) := by
    rfl
  have left : (evaluate .standard trespassing (guarded .null (.boolean true))).environment.outline =
      [[("x", false), ("z", false)], [("y", true)]] := by
    rfl
  obtain ⟨_, outline⟩ := evaluate_indifferent .standard trespassing same
    (Outcome.not_mismatched refused) (Outcome.not_mismatched refused')
  exact ⟨same, refused', outline ▸ left⟩

end LetLang
