import LetLang.Proofs.Environment.Chains
import LetLang.Proofs.Environment.Growth

namespace LetLang

namespace Forest

def bindings (f : Forest) (i : Nat) : List Binding := ((f.scope? i).map Scope.bindings).getD []

inductive Operation where
  | child (parent : Nat)
  | declare (i : Nat) (name : String) (value : Value) (constant : Bool)
  | assign (i : Nat) (name : String) (value : Value)
  | evaluate (i : Nat) (n : Node)

structure History where
  forest : Forest
  log : List (Nat × Event)

def perform (f : Forest) (i : Nat) (m : Evaluation Value) : History :=
  match f.environment? i with
  | some e => ⟨f.update i (m e).environment, (m e).log.map fun event => (i, event)⟩
  | none => ⟨f, []⟩

def step (f : Forest) : Operation → History
  | .child parent => if h : parent < f.entries.length then ⟨f.addChild parent h, []⟩ else ⟨f, []⟩
  | .declare i name value constant => f.perform i (Evaluation.declare name value constant)
  | .assign i name value => f.perform i (Evaluation.assign name value)
  | .evaluate i n => f.perform i (LetLang.evaluate .standard n)

def run (f : Forest) : List Operation → History
  | [] => ⟨f, []⟩
  | operation :: later =>
    let h := f.step operation
    let h' := h.forest.run later
    ⟨h'.forest, h.log ++ h'.log⟩

def declaredIn (i : Nat) (log : List (Nat × Event)) : List Binding :=
  Event.declarations ((log.filter (·.1 = i)).map Prod.snd)

theorem declaredIn_nil (i : Nat) : declaredIn i [] = [] :=
  rfl

theorem declaredIn_append (i : Nat) (log log' : List (Nat × Event)) :
    declaredIn i (log ++ log') = declaredIn i log ++ declaredIn i log' := by
  rw [declaredIn, List.filter_append, List.map_append, Event.declarations_append]
  rfl

theorem declaredIn_self (i : Nat) (log : List Event) :
    declaredIn i (log.map fun event => (i, event)) = Event.declarations log := by
  rw [declaredIn, List.filter_eq_self.mpr (by simp), List.map_map]
  exact congrArg _ (List.map_id log)

theorem declaredIn_of_ne {i j : Nat} (h : i ≠ j) (log : List Event) :
    declaredIn j (log.map fun event => (i, event)) = [] := by
  rw [declaredIn, List.filter_eq_nil_iff.mpr (by simp [h])]
  rfl

variable {f : Forest} {i j : Nat}

theorem bindings_of_scope? {s : Scope} (h : f.scope? i = some s) : f.bindings i = s.bindings := by
  rw [bindings, h]
  rfl

theorem bindings_setScope (h : ∃ s, f.scope? i = some s) (s : Scope) :
    (f.setScope i s).bindings i = s.bindings := by
  obtain ⟨old, found⟩ := h
  refine bindings_of_scope? ?_
  rw [scope?_setScope, found, Option.map_some, if_pos rfl]

theorem bindings_setScope_of_ne (h : i ≠ j) (s : Scope) :
    (f.setScope i s).bindings j = f.bindings j := by
  rw [bindings, scope?_setScope_of_ne h, bindings]

theorem setScopes_kept {is : List Nat} {ss ss' : List Scope} (distinct : is.Nodup)
    (held : f.Holds is ss) (kept : KeptAll ss ss') (j : Nat) :
    Kept (f.bindings j) ((f.setScopes is ss').bindings j) := by
  induction is generalizing f ss ss' with
  | nil => exact .refl _
  | cons i is ih =>
    obtain ⟨new, distinct⟩ := List.nodup_cons.mp distinct
    cases held with
    | @cons _ s _ ss found held =>
    cases kept with
    | @cons _ s' _ ss' head tail =>
      rw [setScopes_cons]
      refine Kept.trans ?_ (ih distinct (Holds.setScope held new s') tail)
      by_cases h : i = j
      · subst h
        rw [bindings_setScope ⟨s, found⟩, bindings_of_scope? found]
        exact head
      · rw [bindings_setScope_of_ne h]
        exact .refl _

theorem kept_quietly {g : Forest} (h : g.bindings j = f.bindings j) :
    Kept (f.bindings j ++ declaredIn j []) (g.bindings j) := by
  rw [declaredIn_nil, List.append_nil, h]
  exact .refl _

theorem perform_kept {m : Evaluation Value} (h : m.Grows) (f : Forest) (i j : Nat) :
    Kept (f.bindings j ++ declaredIn j (f.perform i m).log)
      ((f.perform i m).forest.bindings j) := by
  cases he : f.environment? i with
  | none =>
    simp only [perform, he]
    exact kept_quietly rfl
  | some e =>
    simp only [perform, he]
    obtain ⟨rest, path, held⟩ := environment?_holds he
    have grown := h e
    obtain ⟨new, distinct⟩ := List.nodup_cons.mp (path ▸ (path_descends f i).distinct)
    cases held with
    | cons found held =>
      rw [update_eq, path, Environment.scopes, setScopes_cons]
      refine Kept.trans ?_ (setScopes_kept distinct (Holds.setScope held new _) grown.enclosing j)
      by_cases hj : i = j
      · subst hj
        rw [declaredIn_self, bindings_setScope ⟨_, found⟩, bindings_of_scope? found]
        exact grown.innermost
      · rw [declaredIn_of_ne hj, List.append_nil, bindings_setScope_of_ne hj]
        exact .refl _

theorem addChild_bindings (f : Forest) (parent : Nat) (h : parent < f.entries.length) (j : Nat) :
    (f.addChild parent h).bindings j = f.bindings j := by
  rw [bindings, bindings, scope?, scope?, addChild]
  rcases Nat.lt_trichotomy j f.entries.length with old | new | absent
  · rw [List.getElem?_append_left old]
  · subst new
    rw [List.getElem?_concat_length, List.getElem?_eq_none (Nat.le_refl _)]
    rfl
  · rw [List.getElem?_eq_none (Nat.le_of_lt absent), List.getElem?_eq_none]
    rw [List.length_append]
    exact absent

theorem step_kept (f : Forest) (operation : Operation) (j : Nat) :
    Kept (f.bindings j ++ declaredIn j (f.step operation).log)
      ((f.step operation).forest.bindings j) := by
  cases operation with
  | child parent =>
    by_cases h : parent < f.entries.length
    · simp only [step, dif_pos h]
      exact kept_quietly (addChild_bindings f parent h j)
    · simp only [step, dif_neg h]
      exact kept_quietly rfl
  | declare i name value constant => exact perform_kept (Evaluation.grows_declare _ _ _) f i j
  | assign i name value => exact perform_kept (Evaluation.grows_assign _ _) f i j
  | evaluate i n => exact perform_kept (Evaluation.grows_closed.evaluate _ n) f i j

theorem run_kept (f : Forest) (operations : List Operation) (j : Nat) :
    Kept (f.bindings j ++ declaredIn j (f.run operations).log)
      ((f.run operations).forest.bindings j) := by
  induction operations generalizing f with
  | nil => exact kept_quietly rfl
  | cons operation later ih =>
    rw [run, declaredIn_append]
    exact (step_kept f operation j).trans_append (ih _)

end Forest

end LetLang
