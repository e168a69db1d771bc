import LetLang.Proofs.Environment.Growth

namespace LetLang

namespace Scope

variable {s s' : Scope} {name other : String} {value : Value}

theorem name_of_find? {b : Binding} (h : s.find? name = some b) : b.name = name := by
  simpa using List.find?_some h

theorem find?_eq_none_iff : s.find? name = none ↔ name ∉ s.names := by
  simp [find?, names_eq]

theorem find?_add {b : Binding} (h : b.name ∉ s.names) :
    (s.add b h).find? other = if b.name = other then some b else s.find? other := by
  rw [find?, bindings_add, List.find?_append]
  by_cases hb : b.name = other
  · subst hb
    have unbound : s.bindings.find? (·.name == b.name) = none := find?_eq_none_iff.mpr h
    simp [unbound]
  · simp [find?, hb]

theorem find?_set : (s.set name value).find? other =
    (s.find? other).map fun b => if b.name = name then { b with value } else b := by
  have kept : (fun b : Binding => b.name == other) ∘
      (fun b => if b.name = name then { b with value } else b) = fun b => b.name == other := by
    funext b
    simp only [Function.comp]
    split <;> rfl
  simp only [find?, bindings_set, List.find?_map, kept]

theorem find?_set_of_ne (hn : other ≠ name) : (s.set name value).find? other = s.find? other := by
  rw [find?_set]
  cases h : s.find? other with
  | none => rfl
  | some b =>
    have untouched : b.name ≠ name := by rwa [name_of_find? h]
    simp [untouched]

def Agree (on : String → Prop) (s s' : Scope) : Prop :=
  ∀ name, on name → s.find? name = s'.find? name

namespace Agree

variable {on : String → Prop}

theorem refl (s : Scope) : Agree on s s := fun _ _ => rfl

theorem trans {s'' : Scope} (h : Agree on s s') (h' : Agree on s' s'') : Agree on s s'' :=
  fun name hn => (h name hn).trans (h' name hn)

theorem binds (h : Agree on s s') (hn : on name) : s.binds name = s'.binds name := by
  rw [Scope.binds, Scope.binds, h name hn]

theorem names (h : Agree on s s') (hn : on name) : name ∈ s.names ↔ name ∈ s'.names := by
  rw [← binds_iff, ← binds_iff, h.binds hn]

theorem add {b : Binding} (h : Agree on s s') (hs : b.name ∉ s.names) (hs' : b.name ∉ s'.names) :
    Agree on (s.add b hs) (s'.add b hs') := by
  intro name hn
  rw [find?_add, find?_add, h name hn]

theorem set (h : Agree on s s') (name : String) (value : Value) :
    Agree on (s.set name value) (s'.set name value) := by
  intro other hn
  rw [find?_set, find?_set, h other hn]

theorem of_add {b : Binding} (hs : b.name ∉ s.names) (hn : ¬ on b.name) :
    Agree on s (s.add b hs) := by
  intro name on_name
  have other : b.name ≠ name := fun same => hn (same ▸ on_name)
  rw [find?_add, if_neg other]

theorem of_set (hn : ¬ on name) (value : Value) : Agree on s (s.set name value) := by
  intro other on_other
  have differs : other ≠ name := fun same => hn (same ▸ on_other)
  rw [find?_set_of_ne differs]

end Agree

end Scope

namespace Environment

theorem declare_cases (e : Environment) (name : String) (value : Value) (constant : Bool) :
    (name ∈ e.innermost.names ∧ e.declare name value constant = .error (.redeclared name)) ∨
    ∃ h : name ∉ e.innermost.names, e.declare name value constant =
      .ok { e with innermost := e.innermost.add ⟨name, value, constant⟩ h } := by
  unfold declare
  split
  · rename_i bound
    exact .inl ⟨Scope.binds_iff.mp bound, rfl⟩
  · rename_i unbound
    exact .inr ⟨fun h => unbound (Scope.binds_iff.mpr h), rfl⟩

theorem assign_cases (e : Environment) (name : String) (value : Value) :
    (e.find? name = none ∧ e.assign name value = .error (.unbound name)) ∨
    (∃ b, e.find? name = some b ∧ b.constant ∧ e.assign name value = .error (.constant name)) ∨
    ∃ b e', e.find? name = some b ∧ b.constant = false ∧ e.assign name value = .ok e' ∧
      e'.scopes = setNearest name value e.scopes := by
  cases found : e.find? name with
  | none => exact .inl ⟨rfl, by simp only [assign, found]⟩
  | some b =>
    cases constant : b.constant with
    | true => exact .inr (.inl ⟨b, rfl, constant, by simp [assign, found, constant]⟩)
    | false =>
      obtain ⟨e', assigned⟩ : ∃ e', e.assign name value = .ok e' := by
        simp only [assign, found, constant, Bool.false_eq_true, if_false]
        split <;> exact ⟨_, rfl⟩
      exact .inr (.inr ⟨b, e', rfl, constant, assigned, scopes_assign assigned⟩)

theorem declare_decided {e e' : Environment} {name : String}
    (h : name ∈ e.innermost.names ↔ name ∈ e'.innermost.names) (value value' : Value)
    (constant : Bool) :
    (∃ fault, e.declare name value constant = .error fault ∧
      e'.declare name value' constant = .error fault) ∨
    ∃ (hn : name ∉ e.innermost.names) (hn' : name ∉ e'.innermost.names),
      e.declare name value constant =
        .ok { e with innermost := e.innermost.add ⟨name, value, constant⟩ hn } ∧
      e'.declare name value' constant =
        .ok { e' with innermost := e'.innermost.add ⟨name, value', constant⟩ hn' } := by
  rcases declare_cases e name value constant with ⟨bound, refused⟩ | ⟨unbound, declared⟩
  · rcases declare_cases e' name value' constant with ⟨_, refused'⟩ | ⟨unbound', _⟩
    · exact .inl ⟨_, refused, refused'⟩
    · exact absurd (h.mp bound) unbound'
  · rcases declare_cases e' name value' constant with ⟨bound', _⟩ | ⟨unbound', declared'⟩
    · exact absurd (h.mpr bound') unbound
    · exact .inr ⟨unbound, unbound', declared, declared'⟩

theorem assign_decided {e e' : Environment} {name : String}
    (h : (e.find? name).map Binding.constant = (e'.find? name).map Binding.constant)
    (value value' : Value) :
    (∃ fault, e.assign name value = .error fault ∧ e'.assign name value' = .error fault) ∨
    ∃ a a', e.assign name value = .ok a ∧ e'.assign name value' = .ok a' := by
  rcases assign_cases e name value with ⟨found, refused⟩ | ⟨b, found, constant, refused⟩ |
    ⟨b, a, found, mutable, assigned, _⟩
  · have absent : e'.find? name = none := by
      rw [found, Option.map_none] at h
      exact Option.map_eq_none_iff.mp h.symm
    exact .inl ⟨_, refused, by simp only [assign, absent]⟩
  · rw [found, Option.map_some] at h
    obtain ⟨b', found', flag⟩ := Option.map_eq_some_iff.mp h.symm
    exact .inl ⟨_, refused, by simp [assign, found', flag, constant]⟩
  · rw [found, Option.map_some] at h
    obtain ⟨b', found', flag⟩ := Option.map_eq_some_iff.mp h.symm
    rcases assign_cases e' name value' with ⟨absent, _⟩ | ⟨_, found'', constant, _⟩ |
      ⟨_, a', _, _, assigned', _⟩
    · rw [found'] at absent
      cases absent
    · obtain rfl := Option.some.inj (found'.symm.trans found'')
      rw [flag, mutable] at constant
      cases constant
    · exact .inr ⟨a, a', assigned, assigned'⟩

def Agree (on : String → Prop) (e e' : Environment) : Prop :=
  List.Forall₂ (Scope.Agree on) e.scopes e'.scopes

variable {on : String → Prop} {e e' : Environment} {name : String} {value : Value}

theorem findSome?_agree {ss ss' : List Scope} (h : List.Forall₂ (Scope.Agree on) ss ss')
    (hn : on name) : ss.findSome? (·.find? name) = ss'.findSome? (·.find? name) := by
  induction h with
  | nil => rfl
  | cons head _ ih => simp only [List.findSome?_cons, head name hn, ih]

theorem setNearest_agree {ss ss' : List Scope} (h : List.Forall₂ (Scope.Agree on) ss ss')
    (hn : on name) (value : Value) :
    List.Forall₂ (Scope.Agree on) (setNearest name value ss) (setNearest name value ss') := by
  induction h with
  | nil => exact .nil
  | cons head tail ih =>
    simp only [setNearest, head.binds hn]
    split
    · exact .cons (head.set name value) tail
    · exact .cons head ih

theorem agree_setNearest (hn : ¬ on name) (value : Value) (ss : List Scope) :
    List.Forall₂ (Scope.Agree on) ss (setNearest name value ss) := by
  induction ss with
  | nil => exact .nil
  | cons s ss ih =>
    simp only [setNearest]
    split
    · exact .cons (.of_set hn value) (List.forall₂_same.mpr fun s _ => .refl s)
    · exact .cons (.refl s) ih

namespace Agree

theorem refl (e : Environment) : Agree on e e :=
  List.forall₂_same.mpr fun s _ => Scope.Agree.refl s

theorem trans {e'' : Environment} (h : Agree on e e') (h' : Agree on e' e'') : Agree on e e'' := by
  refine forall₂_trans ?_ h h'
  exact fun _ _ _ => Scope.Agree.trans

theorem find? (h : Agree on e e') (hn : on name) : e.find? name = e'.find? name :=
  findSome?_agree h hn

theorem lookup (h : Agree on e e') (hn : on name) : e.lookup name = e'.lookup name := by
  rw [Environment.lookup, Environment.lookup, h.find? hn]

theorem innermost (h : Agree on e e') : Scope.Agree on e.innermost e'.innermost := by
  cases h with
  | cons head _ => exact head

theorem enclosing (h : Agree on e e') :
    List.Forall₂ (Scope.Agree on) e.enclosing e'.enclosing := by
  cases h with
  | cons _ tail => exact tail

theorem declare (h : Agree on e e') (hn : on name) (value : Value) (constant : Bool) :
    (∃ fault, e.declare name value constant = .error fault ∧
      e'.declare name value constant = .error fault) ∨
    ∃ a a', e.declare name value constant = .ok a ∧ e'.declare name value constant = .ok a' ∧
      Agree on a a' := by
  rcases declare_decided (h.innermost.names hn) value value constant with
    refused | ⟨unbound, unbound', declared, declared'⟩
  · exact .inl refused
  · have grown := h.innermost.add (b := ⟨name, value, constant⟩) unbound unbound'
    exact .inr ⟨_, _, declared, declared', .cons grown h.enclosing⟩

theorem assign (h : Agree on e e') (hn : on name) (value : Value) :
    (∃ fault, e.assign name value = .error fault ∧ e'.assign name value = .error fault) ∨
    ∃ a a', e.assign name value = .ok a ∧ e'.assign name value = .ok a' ∧ Agree on a a' := by
  rcases assign_decided (congrArg _ (h.find? hn)) value value with
    refused | ⟨a, a', assigned, assigned'⟩
  · exact .inl refused
  · refine .inr ⟨a, a', assigned, assigned', ?_⟩
    rw [Agree, scopes_assign assigned, scopes_assign assigned']
    exact setNearest_agree h hn value

theorem of_declare {a : Environment} {constant : Bool}
    (h : e.declare name value constant = .ok a) (hn : ¬ on name) : Agree on e a := by
  rcases declare_cases e name value constant with ⟨_, refused⟩ | ⟨unbound, declared⟩
  · rw [refused] at h
    cases h
  · rw [declared] at h
    cases h
    have grown : Scope.Agree on e.innermost _ :=
      Scope.Agree.of_add (b := ⟨name, value, constant⟩) unbound hn
    exact .cons grown (List.forall₂_same.mpr fun s _ => Scope.Agree.refl s)

theorem of_assign {a : Environment} (h : e.assign name value = .ok a) (hn : ¬ on name) :
    Agree on e a := by
  rw [Agree, scopes_assign h]
  exact agree_setNearest hn value e.scopes

end Agree

end Environment

end LetLang
