import LetLang.Proofs.Evaluation.Uses

namespace LetLang

namespace Evaluation

structure Closed (P : {α : Type} → Evaluation α → Prop) : Prop where
  pure : ∀ {α : Type} (a : α), P (pure a : Evaluation α)
  fail : ∀ {α : Type} (fault : EvalFault), P (fail fault : Evaluation α)
  bind : ∀ {α β : Type} {m : Evaluation α} {f : α → Evaluation β},
    P m → (∀ a, P (f a)) → P (m >>= f)
  emit : ∀ kind value, P (emit (.evaluated kind value))
  lookup : ∀ name, P (lookup name)
  declare : ∀ name value constant, P (declare name value constant)
  assign : ∀ name value, P (assign name value)

structure ClosedOn (U : Use → Prop) (P : {α : Type} → Evaluation α → Prop) : Prop where
  pure : ∀ {α : Type} (a : α), P (pure a : Evaluation α)
  fail : ∀ {α : Type} (fault : EvalFault), P (fail fault : Evaluation α)
  bind : ∀ {α β : Type} {m : Evaluation α} {f : α → Evaluation β},
    P m → (∀ a, P (f a)) → P (m >>= f)
  emit : ∀ kind value, P (emit (.evaluated kind value))
  lookup : ∀ name, U (.read name) → P (lookup name)
  declare : ∀ name value constant, U (.declare name) → P (declare name value constant)
  assign : ∀ name value, U (.assign name) → P (assign name value)

structure CoupledOn (U : Use → Prop) (R : {α : Type} → Evaluation α → Evaluation α → Prop) :
    Prop where
  pure : ∀ {α : Type} (a a' : α), R (pure a : Evaluation α) (pure a')
  fail : ∀ {α : Type} (fault : EvalFault), R (fail fault : Evaluation α) (fail fault)
  bind : ∀ {α β : Type} {m m' : Evaluation α} {f f' : α → Evaluation β},
    R m m' → (∀ a a', R (f a) (f' a')) → R (m >>= f) (m' >>= f')
  emit : ∀ kind v v', R (emit (.evaluated kind v)) (emit (.evaluated kind v'))
  lookup : ∀ name, U (.read name) → R (lookup name) (lookup name)
  declare : ∀ name v v' constant, U (.declare name) →
    R (declare name v constant) (declare name v' constant)
  assign : ∀ name v v', U (.assign name) → R (assign name v) (assign name v')
  operate : ∀ operator x y x' y', R (operate operator x y) (operate operator x' y')

variable {U : Use → Prop} {P : {α : Type} → Evaluation α → Prop}
  {R : {α : Type} → Evaluation α → Evaluation α → Prop}

theorem CoupledOn.arm (h : CoupledOn U R) (d : Dispatch) (kind : Kind) {m m' : Evaluation Value}
    (hm : R m m') : R (d.arm kind m) (d.arm kind m') := by
  unfold Dispatch.arm
  split
  · exact h.bind hm fun v v' => h.bind (h.emit kind v v') fun _ _ => h.pure v v'
  · exact h.fail _

theorem CoupledOn.assignment (h : CoupledOn U R) (d : Dispatch) (target : Node) {value : Node}
    (hu : ∀ u ∈ (Node.assignment target value).uses, U u)
    (hv : R (evaluate d value) (evaluate d value)) :
    R (evaluate d (.assignment target value)) (evaluate d (.assignment target value)) := by
  by_cases ht : ∃ name, target = .identifier name
  · obtain ⟨name, rfl⟩ := ht
    rw [Node.uses] at hu
    have used : U (.assign name) := hu _ (List.mem_append_right _ (List.mem_singleton_self _))
    rw [evaluate_assignment_name]
    exact h.arm d _ (h.bind hv fun v v' => h.assign name v v' used)
  · rw [evaluate_assignment_other d fun name hn => ht ⟨name, hn⟩]
    exact h.arm d _ (h.fail _)

mutual

theorem CoupledOn.evaluate (h : CoupledOn U R) (d : Dispatch) :
    ∀ n : Node, (∀ u ∈ n.uses, U u) → R (LetLang.evaluate d n) (LetLang.evaluate d n)
  | .program body, hu => by
    rw [Node.uses] at hu
    rw [LetLang.evaluate]
    exact h.arm d _ (h.evaluateAll d body .null .null hu)
  | .declaration name none constant, hu => by
    rw [Node.uses] at hu
    rw [LetLang.evaluate]
    exact h.arm d _ (h.declare name .null .null constant (hu _ (List.mem_singleton_self _)))
  | .declaration name (some value) constant, hu => by
    rw [Node.uses, List.forall_mem_append] at hu
    rw [LetLang.evaluate]
    have used := hu.2 _ (List.mem_singleton_self _)
    exact h.arm d _ (h.bind (h.evaluate d value hu.1) fun v v' => h.declare name v v' constant used)
  | .assignment target value, hu =>
    h.assignment d target hu
      (h.evaluate d value fun u hv => hu u (Node.mem_uses_value target hv))
  | .binary left right operator, hu => by
    rw [Node.uses, List.forall_mem_append] at hu
    rw [LetLang.evaluate]
    exact h.arm d _ (h.bind (h.evaluate d left hu.1) fun x x' =>
      h.bind (h.evaluate d right hu.2) fun y y' => h.operate operator x y x' y')
  | .identifier name, hu => by
    rw [Node.uses] at hu
    rw [LetLang.evaluate]
    exact h.arm d _ (h.lookup name (hu _ (List.mem_singleton_self _)))
  | .number x, _ => by
    rw [LetLang.evaluate]
    exact h.arm d _ (h.pure _ _)
  | .property _ _, _ => by
    rw [LetLang.evaluate]
    exact h.fail _
  | .object properties, hu => by
    rw [Node.uses] at hu
    rw [LetLang.evaluate]
    exact h.arm d _ (h.bind (h.evaluateFields d [] [] properties hu) fun _ _ => h.pure _ _)

theorem CoupledOn.evaluateAll (h : CoupledOn U R) (d : Dispatch) :
    ∀ (ns : List Node) (last last' : Value), (∀ u ∈ usesAll ns, U u) →
      R (LetLang.evaluateAll d last ns) (LetLang.evaluateAll d last' ns)
  | [], last, last', _ => by
    rw [LetLang.evaluateAll, LetLang.evaluateAll]
    exact h.pure last last'
  | n :: ns, last, last', hu => by
    rw [usesAll, List.forall_mem_append] at hu
    rw [LetLang.evaluateAll, LetLang.evaluateAll]
    exact h.bind (h.evaluate d n hu.1) fun v v' => h.evaluateAll d ns v v' hu.2

theorem CoupledOn.evaluateFields (h : CoupledOn U R) (d : Dispatch) :
    ∀ (fields fields' : Fields) (ns : List Node), (∀ u ∈ usesAll ns, U u) →
      R (LetLang.evaluateFields d fields ns) (LetLang.evaluateFields d fields' ns)
  | fields, fields', [], _ => by
    rw [LetLang.evaluateFields, LetLang.evaluateFields]
    exact h.pure fields fields'
  | fields, fields', n :: ns, hu => by
    rw [usesAll, List.forall_mem_append] at hu
    rw [LetLang.evaluateFields, LetLang.evaluateFields]
    exact h.bind (h.evaluateEntry d n hu.1) fun entry entry' => h.evaluateFields d _ _ ns hu.2

theorem CoupledOn.evaluateEntry (h : CoupledOn U R) (d : Dispatch) :
    ∀ n : Node, (∀ u ∈ n.uses, U u) → R (LetLang.evaluateEntry d n) (LetLang.evaluateEntry d n)
  | .property key none, hu => by
    rw [Node.uses] at hu
    rw [LetLang.evaluateEntry]
    have used := hu _ (List.mem_singleton_self _)
    exact h.bind (h.lookup key used) fun _ _ => h.pure _ _
  | .property key (some value), hu => by
    rw [Node.uses] at hu
    rw [LetLang.evaluateEntry]
    exact h.bind (h.evaluate d value hu) fun _ _ => h.pure _ _
  | .declaration _ none _, _ => by
    rw [LetLang.evaluateEntry]
    exact h.fail _
  | .declaration _ (some value) _, hu => by
    rw [Node.uses, List.forall_mem_append] at hu
    rw [LetLang.evaluateEntry]
    exact h.bind (h.evaluate d value hu.1) fun _ _ => h.fail _
  | .assignment target value, hu => by
    rw [LetLang.evaluateEntry]
    refine h.bind (h.evaluate d value fun u hv => ?_) fun _ _ => h.fail _
    exact hu u (Node.mem_uses_value target hv)
  | .number _, _ => by
    rw [LetLang.evaluateEntry]
    exact h.fail _
  | .program _, _ | .binary _ _ _, _ | .identifier _, _ | .object _, _ => by
    rw [evaluateEntry_other d (by simp [Node.kind])]
    exact h.fail _

end

theorem ClosedOn.operate (h : ClosedOn U P) (operator : String) (left right : Value) :
    P (operate operator left right) := by
  unfold Evaluation.operate
  split
  · split
    · exact h.pure _
    · exact h.fail _
  · exact h.fail _

theorem ClosedOn.coupledOn (h : ClosedOn U P) : CoupledOn U (fun m _ => P m) where
  pure a _ := h.pure a
  fail := h.fail
  bind hm hf := h.bind hm fun a => hf a a
  emit kind v _ := h.emit kind v
  lookup := h.lookup
  declare name v _ := h.declare name v
  assign name v _ := h.assign name v
  operate operator x y _ _ := h.operate operator x y

theorem ClosedOn.evaluate (h : ClosedOn U P) (d : Dispatch) (n : Node) (hu : ∀ u ∈ n.uses, U u) :
    P (LetLang.evaluate d n) :=
  h.coupledOn.evaluate d n hu

theorem Closed.closedOn (h : Closed P) : ClosedOn (fun _ => True) P where
  pure := h.pure
  fail := h.fail
  bind := h.bind
  emit := h.emit
  lookup name _ := h.lookup name
  declare name value constant _ := h.declare name value constant
  assign name value _ := h.assign name value

theorem Closed.evaluate (h : Closed P) (d : Dispatch) (n : Node) : P (LetLang.evaluate d n) :=
  h.closedOn.evaluate d n fun _ _ => trivial

end Evaluation

end LetLang
