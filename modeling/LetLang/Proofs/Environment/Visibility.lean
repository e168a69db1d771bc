import LetLang.Proofs.Environment.Outlines

namespace LetLang

namespace Scope

variable {name : String} {b : Binding}

def visible : List Scope → List Binding
  | [] => []
  | s :: ss => s.bindings ++ (visible ss).filter (·.name ∉ s.names)

theorem nodup_visible (ss : List Scope) : ((visible ss).map Binding.name).Nodup := by
  induction ss with
  | nil => exact .nil
  | cons s ss ih =>
    rw [visible, List.map_append]
    refine List.Nodup.append s.nodup_bindings ?_ ?_
    · exact ih.sublist (List.filter_sublist.map _)
    · intro name inner outer
      obtain ⟨b, hb, rfl⟩ := List.mem_map.mp outer
      have hidden : b.name ∉ s.names := of_decide_eq_true (List.mem_filter.mp hb).2
      exact hidden (s.names_eq ▸ inner)

theorem find?_visible (ss : List Scope) (name : String) :
    (visible ss).find? (·.name == name) = ss.findSome? (·.find? name) := by
  induction ss with
  | nil => rfl
  | cons s ss ih =>
    rw [visible, List.find?_append, List.findSome?_cons]
    cases found : s.find? name with
    | some b =>
      rw [find?] at found
      rw [found, Option.some_or]
    | none =>
      -- what is hidden has another name than the one in question
      have unbound : name ∉ s.names := find?_eq_none_iff.mp found
      have same : (fun b : Binding => decide (decide (b.name ∉ s.names) ∧ b.name == name)) =
          fun b => b.name == name := by
        funext b
        by_cases hb : b.name = name
        · simp [hb, unbound]
        · simp [hb]
      rw [find?] at found
      rw [found, Option.none_or, List.find?_filter, same, ih]

end Scope

namespace Environment

variable {e e' : Environment} {name other : String} {value : Value}

def flat (e : Environment) : Environment where
  innermost := .ofBindings (Scope.visible e.scopes) (Scope.nodup_visible e.scopes)
  enclosing := []

theorem find?_of_single (h : e.enclosing = []) : e.find? name = e.innermost.find? name := by
  rw [find?, scopes, h, List.findSome?_cons]
  cases e.innermost.find? name with
  | some b => rfl
  | none => rfl

theorem find?_flat (e : Environment) (name : String) : e.flat.find? name = e.find? name := by
  rw [find?_of_single rfl, flat, Scope.find?, Scope.bindings_ofBindings]
  exact Scope.find?_visible e.scopes name

theorem mem_names_flat {e : Environment} :
    name ∈ e.flat.innermost.names ↔ ∃ s ∈ e.scopes, name ∈ s.names := by
  rw [← not_iff_not, ← Scope.find?_eq_none_iff, ← find?_of_single rfl, find?_flat]
  simp only [find?, List.findSome?_eq_none_iff, Scope.find?_eq_none_iff]
  push Not
  rfl

theorem find?_add_innermost {b : Binding} (h : b.name ∉ e.innermost.names) :
    ({ e with innermost := e.innermost.add b h } : Environment).find? name =
      if b.name = name then some b else e.find? name := by
  simp only [find?, scopes, List.findSome?_cons, Scope.find?_add]
  by_cases hn : b.name = name
  · simp only [if_pos hn]
  · simp only [if_neg hn]

theorem name_of_findSome? {ss : List Scope} {b : Binding}
    (h : ss.findSome? (·.find? name) = some b) : b.name = name := by
  obtain ⟨s, _, found⟩ := List.exists_of_findSome?_eq_some h
  exact Scope.name_of_find? found

theorem findSome?_setNearest (ss : List Scope) (name other : String) (value : Value) :
    (setNearest name value ss).findSome? (·.find? other) =
      (ss.findSome? (·.find? other)).map fun b => if b.name = name then { b with value } else b := by
  induction ss with
  | nil => rfl
  | cons s ss ih =>
    rw [setNearest]
    by_cases bound : s.binds name
    · rw [if_pos bound, List.findSome?_cons, List.findSome?_cons, Scope.find?_set]
      cases found : s.find? other with
      | some b => rfl
      | none =>
        have differs : other ≠ name := by
          rintro rfl
          rw [Scope.binds, found] at bound
          cases bound
        cases behind : ss.findSome? (·.find? other) with
        | none => rfl
        | some b =>
          rw [← name_of_findSome? behind] at differs
          simp only [Option.map_none, Option.map_some, if_neg differs]
    · rw [if_neg bound, List.findSome?_cons, List.findSome?_cons]
      cases found : s.find? other with
      | none => exact ih
      | some b =>
        have differs : b.name ≠ name := by
          intro same
          rw [← same, Scope.name_of_find? found, Scope.binds, found] at bound
          exact bound rfl
        simp only [Option.map_some, if_neg differs]

theorem find?_assign {a : Environment} (h : e.assign name value = .ok a) (other : String) :
    a.find? other =
      (e.find? other).map fun b => if b.name = name then { b with value } else b := by
  rw [find?, scopes_assign h, findSome?_setNearest]
  rfl

theorem find?_assign_self (h : e.assign name value = .ok e') :
    ∃ b, e'.find? name = some b ∧ b.value = value := by
  rcases e.assign_cases name value with ⟨_, refused⟩ | ⟨_, _, _, refused⟩ | ⟨b, _, found, _⟩
  · rw [refused] at h
    cases h
  · rw [refused] at h
    cases h
  · refine ⟨{ b with value }, ?_, rfl⟩
    rw [find?_assign h, found, Option.map_some, if_pos (name_of_findSome? found)]

theorem find?_assign_of_ne (h : e.assign name value = .ok e')
    (differs : other ≠ name) : e'.find? other = e.find? other := by
  rw [find?_assign h]
  cases found : e.find? other with
  | none => rfl
  | some b =>
    rw [← name_of_findSome? found] at differs
    rw [Option.map_some, if_neg differs]

structure Shows (on : String → Prop) (e e' : Environment) : Prop where
  find? : ∀ name, e.find? name = e'.find? name
  innermost : ∀ name, on name → (name ∈ e.innermost.names ↔ name ∈ e'.innermost.names)

namespace Shows

variable {on : String → Prop}

theorem lookup (h : e.Shows on e') (name : String) : e.lookup name = e'.lookup name := by
  rw [Environment.lookup, Environment.lookup, h.find? name]

theorem declare (h : e.Shows on e') (hn : on name) (value : Value) (constant : Bool) :
    (∃ fault, e.declare name value constant = .error fault ∧
      e'.declare name value constant = .error fault) ∨
    ∃ a a', e.declare name value constant = .ok a ∧ e'.declare name value constant = .ok a' ∧
      a.Shows on a' := by
  rcases declare_decided (h.innermost name hn) value value constant with
    refused | ⟨unbound, unbound', declared, declared'⟩
  · exact .inl refused
  refine .inr ⟨_, _, declared, declared', ?_, ?_⟩
  · intro other
    rw [find?_add_innermost (b := ⟨name, value, constant⟩) unbound,
      find?_add_innermost (b := ⟨name, value, constant⟩) unbound', h.find? other]
  · intro other on_other
    have same := h.innermost other on_other
    simp only [Scope.names_eq_outline, Scope.outline_add, List.map_append, List.mem_append] at same ⊢
    rw [same]

theorem assign (h : e.Shows on e') (name : String) (value : Value) :
    (∃ fault, e.assign name value = .error fault ∧ e'.assign name value = .error fault) ∨
    ∃ a a', e.assign name value = .ok a ∧ e'.assign name value = .ok a' ∧ a.Shows on a' := by
  rcases assign_decided (congrArg _ (h.find? name)) value value with
    refused | ⟨a, a', assigned, assigned'⟩
  · exact .inl refused
  refine .inr ⟨a, a', assigned, assigned', ?_, ?_⟩
  · intro other
    rw [find?_assign assigned, find?_assign assigned', h.find? other]
  · intro other on_other
    rw [names_innermost_of_outline (outline_assign assigned),
      names_innermost_of_outline (outline_assign assigned')]
    exact h.innermost other on_other

end Shows

theorem shows_flat {on : String → Prop}
    (h : ∀ name, on name → (∃ s ∈ e.enclosing, name ∈ s.names) → name ∈ e.innermost.names) :
    e.Shows on e.flat where
  find? name := (e.find?_flat name).symm
  innermost := by
    intro name on_name
    rw [mem_names_flat]
    constructor
    · intro bound
      exact ⟨e.innermost, List.mem_cons_self, bound⟩
    · rintro ⟨s, hs, bound⟩
      rcases List.mem_cons.mp hs with rfl | outer
      · exact bound
      · exact h name on_name ⟨s, outer, bound⟩

end Environment

end LetLang
