import LetLang.Proofs.Environment.Agreement

namespace LetLang

namespace Scope

variable {s s' : Scope} {name : String}

def outline (s : Scope) : List (String × Bool) := s.bindings.map fun b => (b.name, b.constant)

theorem names_eq_outline (s : Scope) : s.names = s.outline.map Prod.fst := by
  rw [names_eq, outline, List.map_map]
  rfl

theorem outline_add {b : Binding} (h : b.name ∉ s.names) :
    (s.add b h).outline = s.outline ++ [(b.name, b.constant)] := by
  rw [outline, bindings_add, List.map_append]
  rfl

theorem outline_set (s : Scope) (name : String) (value : Value) :
    (s.set name value).outline = s.outline := by
  rw [outline, outline, bindings_set, List.map_map]
  apply List.map_congr_left
  intro b _
  simp only [Function.comp]
  split <;> rfl

theorem constant_find? (s : Scope) (name : String) :
    (s.find? name).map Binding.constant = (s.outline.find? (·.1 == name)).map Prod.snd := by
  rw [outline, List.find?_map, Option.map_map]
  rfl

end Scope

namespace Environment

variable {e e' : Environment} {name : String} {value : Value}

def outline (e : Environment) : List (List (String × Bool)) := e.scopes.map Scope.outline

theorem outline_cons (e : Environment) :
    e.outline = e.innermost.outline :: e.enclosing.map Scope.outline :=
  rfl

theorem constant_find? (e : Environment) (name : String) :
    (e.find? name).map Binding.constant =
      e.outline.findSome? fun o => (o.find? (·.1 == name)).map Prod.snd := by
  rw [find?, outline, List.findSome?_map, List.map_findSome?]
  congr 1
  funext s
  exact s.constant_find? name

theorem constant_eq_of_outline (h : e.outline = e'.outline) (name : String) :
    (e.find? name).map Binding.constant = (e'.find? name).map Binding.constant := by
  rw [constant_find?, constant_find?, h]

theorem resolve_of_outline (h : e.outline = e'.outline) (name : String) :
    e.resolve name = e'.resolve name := by
  have place (e : Environment) : e.scopes.findIdx? (·.binds name) =
      e.outline.findIdx? fun o => decide (name ∈ o.map Prod.fst) := by
    rw [outline, List.findIdx?_map]
    congr 1
    funext s
    rw [Function.comp, ← Scope.names_eq_outline, Bool.eq_iff_iff, Scope.binds_iff,
      decide_eq_true_iff]
  rw [resolve, resolve, place, place, h]

theorem isConstant_of_outline (h : e.outline = e'.outline) (name : String) :
    e.isConstant name = e'.isConstant name := by
  have flag (e : Environment) : e.isConstant name =
      match (e.find? name).map Binding.constant with
      | some constant => .ok constant
      | none => .error (.unbound name) := by
    rw [isConstant]
    cases e.find? name <;> rfl
  rw [flag, flag, constant_eq_of_outline h]

theorem outline_setNearest (name : String) (value : Value) (ss : List Scope) :
    (setNearest name value ss).map Scope.outline = ss.map Scope.outline := by
  induction ss with
  | nil => rfl
  | cons s ss ih =>
    rw [setNearest]
    split
    · rw [List.map_cons, List.map_cons, Scope.outline_set]
    · rw [List.map_cons, List.map_cons, ih]

theorem outline_assign (h : e.assign name value = .ok e') : e'.outline = e.outline := by
  rw [outline, outline, scopes_assign h, outline_setNearest]

theorem names_innermost_of_outline (h : e.outline = e'.outline) :
    e.innermost.names = e'.innermost.names := by
  rw [outline_cons, outline_cons, List.cons.injEq] at h
  rw [Scope.names_eq_outline, Scope.names_eq_outline, h.1]

end Environment

end LetLang
