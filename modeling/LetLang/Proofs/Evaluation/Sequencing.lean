import LetLang.Evaluation

namespace LetLang

namespace Evaluation

variable {α β γ : Type} {m : Evaluation α} {f : α → Evaluation β} {e : Environment}

theorem bind_of_ok {a : α} (h : (m e).result = .ok a) :
    (m >>= f) e = { f a (m e).environment with
      log := (m e).log ++ (f a (m e).environment).log } := by
  simp only [Bind.bind, Evaluation.bind, h]

theorem bind_of_error {fault : EvalFault} (h : (m e).result = .error fault) :
    (m >>= f) e = ⟨.error fault, (m e).environment, (m e).log⟩ := by
  simp only [Bind.bind, Evaluation.bind, h]

theorem ok_of_bind {b : β} (h : ((m >>= f) e).result = .ok b) :
    ∃ a, (m e).result = .ok a ∧ (f a (m e).environment).result = .ok b ∧
      ((m >>= f) e).environment = (f a (m e).environment).environment := by
  cases hr : (m e).result with
  | ok a =>
    rw [bind_of_ok hr] at h ⊢
    exact ⟨a, rfl, h, rfl⟩
  | error fault =>
    rw [bind_of_error hr] at h
    cases h

theorem bind_return (m : Evaluation α) : (m >>= fun a => pure a) = m := by
  funext e
  cases h : (m e).result with
  | ok a =>
    have unchanged : m e = ⟨.ok a, (m e).environment, (m e).log⟩ := by rw [← h]
    exact (bind_of_ok h).trans ((congrArg (Outcome.mk _ _) (List.append_nil _)).trans unchanged.symm)
  | error fault => rw [bind_of_error h, ← h]

theorem bind_bind (m : Evaluation α) (f : α → Evaluation β) (g : β → Evaluation γ) :
    m >>= f >>= g = m >>= fun a => f a >>= g := by
  funext e
  cases h : (m e).result with
  | error fault =>
    rw [bind_of_error h, bind_of_error (by rw [bind_of_error h]), bind_of_error h]
  | ok a =>
    rw [bind_of_ok h]
    cases hf : (f a (m e).environment).result with
    | ok b =>
      rw [bind_of_ok hf, bind_of_ok (by rw [bind_of_ok h, hf]), bind_of_ok h]
      exact congrArg (Outcome.mk _ _) (List.append_assoc _ _ _)
    | error fault => rw [bind_of_error hf, bind_of_error (by rw [bind_of_ok h, hf]), bind_of_ok h]

theorem lookup_eq_ok {name : String} {v : Value} :
    (lookup name e).result = .ok v ↔ e.lookup name = .ok v := by
  constructor
  · intro h
    cases found : e.lookup name with
    | ok w =>
      rw [lookup, found] at h
      cases h
      rfl
    | error fault =>
      rw [lookup, found] at h
      cases h
  · intro h
    rw [lookup, h]
    rfl

instance : LawfulMonad Evaluation := .mk' Evaluation bind_return (fun _ _ => rfl) bind_bind

end Evaluation

theorem evaluateAll_nil (d : Dispatch) (last : Value) : evaluateAll d last [] = pure last := by
  rw [evaluateAll]

theorem evaluateAll_cons (d : Dispatch) (last : Value) (n : Node) (ns : List Node) :
    evaluateAll d last (n :: ns) = evaluate d n >>= fun v => evaluateAll d v ns := by
  rw [evaluateAll]

theorem evaluateAll_append (d : Dispatch) (last : Value) (ns ms : List Node) :
    evaluateAll d last (ns ++ ms) = evaluateAll d last ns >>= fun v => evaluateAll d v ms := by
  induction ns generalizing last with
  | nil => rw [List.nil_append, evaluateAll_nil, pure_bind]
  | cons n ns ih =>
    rw [List.cons_append, evaluateAll_cons, evaluateAll_cons, bind_assoc]
    exact congrArg _ (funext ih)

theorem evaluateAll_last (d : Dispatch) {ns : List Node} (h : ns ≠ []) (last last' : Value) :
    evaluateAll d last ns = evaluateAll d last' ns := by
  cases ns with
  | nil => exact absurd rfl h
  | cons n ns => rw [evaluateAll_cons, evaluateAll_cons]

theorem evaluate_program (d : Dispatch) (body : List Node) :
    evaluate d (.program body) = d.arm .program (evaluateAll d .null body) := by
  rw [evaluate]

theorem evaluate_assignment_name (d : Dispatch) (name : String) (value : Node) :
    evaluate d (.assignment (.identifier name) value) =
      d.arm .assignment (evaluate d value >>= Evaluation.assign name) := by
  rw [evaluate]

theorem evaluate_assignment_other (d : Dispatch) {target : Node}
    (h : ∀ name, target ≠ .identifier name) (value : Node) :
    evaluate d (.assignment target value) =
      d.arm .assignment (Evaluation.fail (.invalidTarget target.kind)) := by
  rw [evaluate]
  exact h

theorem evaluate_assignment_cases (d : Dispatch) (target value : Node) :
    (∃ name, evaluate d (.assignment target value) =
      d.arm .assignment (evaluate d value >>= Evaluation.assign name)) ∨
    evaluate d (.assignment target value) =
      d.arm .assignment (Evaluation.fail (.invalidTarget target.kind)) := by
  by_cases h : ∃ name, target = .identifier name
  · obtain ⟨name, rfl⟩ := h
    exact .inl ⟨name, evaluate_assignment_name d name value⟩
  · exact .inr (evaluate_assignment_other d (fun name hn => h ⟨name, hn⟩) value)

theorem evaluateEntry_other (d : Dispatch) {n : Node}
    (h : n.kind ∈ [Kind.program, .binary, .identifier, .object]) :
    evaluateEntry d n = Evaluation.fail (.missingField n.kind "value") := by
  cases n with
  | program _ | binary _ _ _ | identifier _ | object _ =>
    rw [evaluateEntry]
    all_goals
      intros
      contradiction
  | _ => simp [Node.kind] at h

section

variable {d : Dispatch} {kind : Kind} {m : Evaluation Value} {e : Environment}

theorem Dispatch.arm_of_ok {v : Value} (h : kind ∈ d.evaluated) (hm : (m e).result = .ok v) :
    d.arm kind m e = ⟨.ok v, (m e).environment, (m e).log ++ [.evaluated kind v]⟩ := by
  rw [arm, if_pos h, Evaluation.bind_of_ok hm]
  rfl

theorem Dispatch.arm_of_error {fault : EvalFault} (h : kind ∈ d.evaluated)
    (hm : (m e).result = .error fault) :
    d.arm kind m e = ⟨.error fault, (m e).environment, (m e).log⟩ := by
  rw [arm, if_pos h, Evaluation.bind_of_error hm]

end

theorem Dispatch.arm_outcome {d : Dispatch} {kind : Kind} (h : kind ∈ d.evaluated)
    (m : Evaluation Value) (e : Environment) :
    (d.arm kind m e).result = (m e).result ∧ (d.arm kind m e).environment = (m e).environment := by
  cases hm : (m e).result with
  | ok v =>
    rw [arm_of_ok h hm]
    exact ⟨rfl, rfl⟩
  | error fault =>
    rw [arm_of_error h hm]
    exact ⟨rfl, rfl⟩

theorem Dispatch.ok_of_arm {d : Dispatch} {kind : Kind} {m : Evaluation Value} {e : Environment}
    {v : Value} (h : (d.arm kind m e).result = .ok v) :
    (m e).result = .ok v ∧ (d.arm kind m e).environment = (m e).environment := by
  by_cases hk : kind ∈ d.evaluated
  · obtain ⟨result, environment⟩ := arm_outcome hk m e
    exact ⟨result.symm.trans h, environment⟩
  · rw [arm, if_neg hk] at h
    cases h

end LetLang
