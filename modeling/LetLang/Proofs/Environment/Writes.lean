import LetLang.Proofs.Environment.Nearest

namespace LetLang

theorem Environment.lookup_congr {e e' : Environment} {name : String}
    (h : e'.find? name = e.find? name) : e'.lookup name = e.lookup name := by
  rw [lookup, lookup, h]

theorem Environment.lookup_of_find? {e : Environment} {name : String} {b : Binding}
    (h : e.find? name = some b) : e.lookup name = .ok b.value := by
  rw [lookup, h]

theorem Environment.resolve_of_find? {e : Environment} {name : String} {b : Binding}
    (h : e.find? name = some b) : ∃ k, e.resolve name = .ok k := by
  obtain ⟨s, hs, found⟩ := List.exists_of_findSome?_eq_some h
  have bound : s.binds name := by rw [Scope.binds, found, Option.isSome_some]
  cases place : e.scopes.findIdx? (·.binds name) with
  | some k => exact ⟨k, by rw [resolve, place]⟩
  | none => exact absurd bound (Bool.eq_false_iff.mp (List.findIdx?_eq_none_iff.mp place s hs))

theorem Environment.resolve_of_find?_none {e : Environment} {name : String}
    (h : e.find? name = none) : e.resolve name = .error (.unbound name) := by
  have unbound : e.scopes.findIdx? (·.binds name) = none := by
    rw [List.findIdx?_eq_none_iff]
    intro s hs
    rw [Scope.binds, List.findSome?_eq_none_iff.mp h s hs, Option.isSome_none]
  rw [resolve, unbound]

theorem Environment.contains_iff (e : Environment) (name : String) :
    (e.contains name ↔ ∃ v, e.lookup name = .ok v) ∧
    (e.contains name ↔ ∃ constant, e.isConstant name = .ok constant) ∧
    (e.contains name ↔ ∃ k, e.resolve name = .ok k) := by
  cases found : e.find? name with
  | none => simp [contains, lookup, isConstant, found, resolve_of_find?_none found]
  | some b => simp [contains, lookup, isConstant, found, resolve_of_find? found]

namespace Forest

variable {f g : Forest} {i d : Nat} {name : String} {value : Value} {e : Environment}

def Reveals (f g : Forest) (inView : Nat → Prop) (name : String) (value : Value) : Prop :=
  ∀ i e, f.environment? i = some e → ∃ e', g.environment? i = some e' ∧
    (inView i → e'.lookup name = .ok value) ∧
    ∀ other, ¬ (other = name ∧ inView i) → e'.lookup other = e.lookup other

inductive Assigned (f : Forest) (i : Nat) (name : String) (value : Value) :
    Except EvalFault Value → Forest → Prop where
  | unbound (h : ∀ j ∈ f.path i, ¬ f.Binds j name) :
      Assigned f i name value (.error (.name (.unbound name))) f
  | constant {d : Nat} (near : f.Nearest i d name) (h : f.HoldsConstant d name) :
      Assigned f i name value (.error (.name (.constant name))) f
  | written {d : Nat} {g : Forest} (near : f.Nearest i d name) (h : ¬ f.HoldsConstant d name)
      (becomes : f.Becomes g d
        ((f.bindings d).map fun b => if b.name = name then { b with value } else b))
      (reveals : f.Reveals g (fun j => f.Nearest j d name) name value) :
      Assigned f i name value (.ok value) g

inductive Declared (f : Forest) (i : Nat) (name : String) (value : Value) (constant : Bool) :
    Except EvalFault Value → Forest → Prop where
  | redeclared (h : f.Binds i name) :
      Declared f i name value constant (.error (.name (.redeclared name))) f
  | added {g : Forest} (h : ¬ f.Binds i name)
      (becomes : f.Becomes g i (f.bindings i ++ [⟨name, value, constant⟩]))
      (reveals : f.Reveals g (fun j => f.Reaches j i name) name value) :
      Declared f i name value constant (.ok value) g

theorem Becomes.reveals {bs : List Binding} {b : Binding} (h : f.Becomes g d bs)
    (written : bs.find? (·.name == name) = some b)
    (others : ∀ other, other ≠ name → bs.find? (·.name == other) = f.binding? other d) :
    f.Reveals g (fun j => f.Reaches j d name) name b.value := by
  intro i e he
  obtain ⟨e', he'⟩ := exists_environment_iff.mpr (h.path i ▸ exists_environment_iff.mp ⟨e, he⟩)
  refine ⟨e', he', fun reached => ?_, fun other out => ?_⟩
  · apply Environment.lookup_of_find?
    rw [find?_environment he', h.find?_reached reached written]
  · apply Environment.lookup_congr
    rw [find?_environment he', find?_environment he]
    by_cases same : other = name
    · subst same
      exact h.find?_away fun reached => out ⟨rfl, reached⟩
    · exact h.find?_same (others other same) i

theorem becomes_setScope {s : Scope} (found : f.scope? d = some s) (s' : Scope) :
    f.Becomes (f.setScope d s') d s'.bindings where
  path := path_setScope f d s'
  there := bindings_setScope ⟨s, found⟩ s'
  elsewhere _ other := bindings_setScope_of_ne (Ne.symm other) s'

theorem setScopes_setNearest {inner outer : List Nat} {ss : List Scope} {s : Scope}
    (held : f.Holds (inner ++ d :: outer) ss) (distinct : (inner ++ d :: outer).Nodup)
    (hidden : ∀ j ∈ inner, ¬ f.Binds j name) (found : f.scope? d = some s) (bound : s.binds name)
    (value : Value) :
    f.setScopes (inner ++ d :: outer) (Environment.setNearest name value ss) =
      f.setScope d (s.set name value) := by
  induction inner generalizing ss with
  | nil =>
    rw [List.nil_append] at held distinct ⊢
    cases held with
    | cons found' held =>
      obtain rfl := Option.some.inj (found'.symm.trans found)
      rw [Environment.setNearest, if_pos bound]
      exact setScopes_first (.cons found' held) distinct _
  | cons j inner ih =>
    obtain ⟨here, further⟩ := List.forall_mem_cons.mp hidden
    rw [List.cons_append] at held distinct ⊢
    cases held with
    | cons found' held =>
      rw [← isSome_binding?_iff, binding?_of_scope? found', ← Scope.binds] at here
      rw [Environment.setNearest, if_neg here, setScopes_cons, setScope_same found']
      exact ih held (List.nodup_cons.mp distinct).2 further

theorem update_assigned {e' : Environment} {s : Scope} (h : f.environment? i = some e)
    (assigned : e.assign name value = .ok e') (near : f.Nearest i d name)
    (found : f.scope? d = some s) : f.update i e' = f.setScope d (s.set name value) := by
  obtain ⟨rest, path, held⟩ := environment?_holds h
  obtain ⟨inner, outer, way, hidden⟩ := near.reached
  have distinct := (path_descends f i).distinct
  rw [way] at distinct
  rw [← path, way] at held
  have bound : s.binds name := by
    rw [Scope.binds, ← binding?_of_scope? found]
    exact isSome_binding?_iff.mpr near.binds
  rw [update_eq, Environment.scopes_assign assigned, way]
  exact setScopes_setNearest held distinct hidden found bound value

theorem reveals_set {s : Scope} {b : Binding} (hs : f.scope? d = some s)
    (found : f.binding? name d = some b) (value : Value) :
    f.Reveals (f.setScope d (s.set name value)) (fun j => f.Nearest j d name) name value := by
  have binds : f.Binds d name := isSome_binding?_iff.mp (by rw [found, Option.isSome_some])
  have nearest : (fun j => f.Nearest j d name) = fun j => f.Reaches j d name :=
    funext fun j => propext ⟨Nearest.reached, fun reached => ⟨reached, binds⟩⟩
  rw [binding?_of_scope? hs] at found
  have written : (s.set name value).find? name = some { b with value } := by
    rw [Scope.find?_set, found, Option.map_some, if_pos (Scope.name_of_find? found)]
  rw [nearest]
  refine (becomes_setScope hs (s.set name value)).reveals written fun other differs => ?_
  rw [binding?_of_scope? hs]
  exact Scope.find?_set_of_ne differs

theorem reveals_add {s : Scope} {b : Binding} (hs : f.scope? d = some s) (new : b.name ∉ s.names) :
    f.Reveals (f.setScope d (s.add b new)) (fun j => f.Reaches j d b.name) b.name b.value := by
  have written : (s.add b new).find? b.name = some b := by
    rw [Scope.find?_add, if_pos rfl]
  refine (becomes_setScope hs (s.add b new)).reveals written fun other differs => ?_
  rw [binding?_of_scope? hs]
  exact Scope.find?_add new |>.trans (if_neg (Ne.symm differs))

theorem perform_forest (h : f.environment? i = some e) (m : Evaluation Value) :
    (f.perform i m).forest = f.update i (m e).environment := by
  simp only [perform, h]

theorem step_assigned (h : f.environment? i = some e) (name : String) (value : Value) :
    f.Assigned i name value (Evaluation.assign name value e).result
      (f.step (.assign i name value)).forest := by
  rw [step, perform_forest h, Evaluation.assign]
  rcases e.assign_cases name value with ⟨absent, refused⟩ | ⟨b, found, constant, refused⟩ |
    ⟨b, e', found, mutable, assigned, _⟩
  · simp only [refused]
    rw [find?_environment h] at absent
    rw [update_same h]
    exact .unbound (find?_eq_none_iff.mp absent)
  · simp only [refused]
    rw [find?_environment h] at found
    obtain ⟨d, near, here⟩ := exists_nearest found
    rw [update_same h]
    exact .constant near (holdsConstant_of_binding? here constant)
  · simp only [assigned]
    rw [find?_environment h] at found
    obtain ⟨d, near, here⟩ := exists_nearest found
    obtain ⟨s, hs⟩ := near.exists_scope
    rw [update_assigned h assigned near hs]
    refine .written near (not_constant_of_mutable here mutable hs) ?_ (reveals_set hs here value)
    rw [bindings_of_scope? hs, ← Scope.bindings_set]
    exact becomes_setScope hs (s.set name value)

theorem step_declared (h : f.environment? i = some e) (name : String) (value : Value)
    (constant : Bool) :
    f.Declared i name value constant (Evaluation.declare name value constant e).result
      (f.step (.declare i name value constant)).forest := by
  have here := scope?_innermost h
  have bound : f.Binds i name ↔ name ∈ e.innermost.names := by
    rw [← isSome_binding?_iff, binding?_of_scope? here, ← Scope.binds, Scope.binds_iff]
  rw [step, perform_forest h, Evaluation.declare]
  rcases e.declare_cases name value constant with ⟨old, refused⟩ | ⟨new, declared⟩
  · simp only [refused]
    rw [update_same h]
    exact .redeclared (bound.mpr old)
  · simp only [declared]
    rw [update_innermost h]
    refine .added (mt bound.mp new) ?_ (reveals_add (b := ⟨name, value, constant⟩) here new)
    rw [bindings_of_scope? here, ← Scope.bindings_add (b := ⟨name, value, constant⟩) new]
    exact becomes_setScope here (e.innermost.add ⟨name, value, constant⟩ new)

theorem Assigned.succeeds_iff {result : Except EvalFault Value}
    (h : f.Assigned i name value result g) :
    (∃ v, result = .ok v) ↔ ∃ d, f.Nearest i d name ∧ ¬ f.HoldsConstant d name := by
  cases h with
  | unbound absent =>
    refine ⟨nofun, ?_⟩
    rintro ⟨d, near, _⟩
    exact absurd near.binds (absent d near.mem_path)
  | constant near constant =>
    refine ⟨nofun, ?_⟩
    rintro ⟨d, near', mutable⟩
    exact absurd (near.unique near' ▸ constant) mutable
  | written near mutable _ _ => exact ⟨fun _ => ⟨_, near, mutable⟩, fun _ => ⟨value, rfl⟩⟩

end Forest

open Forest in
theorem writes_seen (f : Forest) {i : Nat} {e : Environment} (h : f.environment? i = some e)
    (name : String) (value : Value) :
    f.Assigned i name value (Evaluation.assign name value e).result
      (f.step (.assign i name value)).forest ∧
    ((∃ v, (Evaluation.assign name value e).result = .ok v) ↔
      ∃ d, f.Nearest i d name ∧ ¬ f.HoldsConstant d name) ∧
    (∀ constant, f.Declared i name value constant
      (Evaluation.declare name value constant e).result
      (f.step (.declare i name value constant)).forest) ∧
    (∀ k, e.resolve name = .ok k → ∃ d, (f.path i)[k]? = some d ∧ f.Nearest i d name) ∧
    (e.contains name ↔ ∃ v, e.lookup name = .ok v) ∧
    (e.contains name ↔ ∃ constant, e.isConstant name = .ok constant) ∧
    (e.contains name ↔ ∃ k, e.resolve name = .ok k) := by
  have assigned := step_assigned h name value
  exact ⟨assigned, assigned.succeeds_iff, step_declared h name value,
    fun _ => nearest_of_resolve h, e.contains_iff name⟩

def family : Forest :=
  ((Forest.ofRoot .global).run [.child 0, .child 0, .child 1, .declare 0 "x" .null false,
    .declare 1 "x" .null false]).forest

theorem family_writes_seen :
    ∃ e, family.environment? 3 = some e ∧
      (Evaluation.assign "x" (.boolean true) e).result = .ok (.boolean true) ∧
      family.Reveals (family.step (.assign 3 "x" (.boolean true))).forest
        (fun j => family.Nearest j 1 "x") "x" (.boolean true) ∧
      family.Nearest 3 1 "x" ∧ ¬ family.Nearest 2 1 "x" := by
  have path : family.path 3 = [3, 1, 0] := by
    with_unfolding_all rfl
  have aside : family.path 2 = [2, 0] := by
    with_unfolding_all rfl
  have child : family.bindings 1 = [⟨"x", .null, false⟩] := by
    with_unfolding_all rfl
  have grandchild : family.bindings 3 = [] := by
    with_unfolding_all rfl
  have near : family.Nearest 3 1 "x" := by
    refine ⟨⟨[3], [0], path, ?_⟩, ?_⟩
    · simp [Forest.Binds, grandchild]
    · simp [Forest.Binds, child]
  have mutable : ¬ family.HoldsConstant 1 "x" := by
    simp [Forest.HoldsConstant, child]
  have far : ¬ family.Nearest 2 1 "x" := by
    intro near'
    have member := near'.mem_path
    rw [aside] at member
    revert member
    decide
  obtain ⟨e, he⟩ := Forest.exists_environment_iff.mpr (path ▸ List.cons_ne_nil 3 [1, 0])
  obtain ⟨assigned, succeeds, _⟩ := writes_seen family he "x" (.boolean true)
  obtain ⟨v, hv⟩ := succeeds.mpr ⟨1, near, mutable⟩
  refine ⟨e, he, ?_⟩
  rw [hv] at assigned ⊢
  generalize (family.step (.assign 3 "x" (.boolean true))).forest = g at assigned ⊢
  cases assigned with
  | written near' _ _ reveals =>
    obtain rfl := near'.unique near
    exact ⟨rfl, reveals, near, far⟩

end LetLang
