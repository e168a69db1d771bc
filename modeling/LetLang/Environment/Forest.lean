import LetLang.Environment

namespace LetLang

structure ChildScope where
  scope : Scope
  parent : Option Nat

structure Forest where
  entries : List ChildScope
  older : ∀ (i parent : Nat) (entry : ChildScope),
    entries[i]? = some entry → entry.parent = some parent → parent < i

namespace Forest

def ofRoot (root : Scope) : Forest where
  entries := [⟨root, none⟩]
  older := by
    intro i parent entry h hp
    cases i with
    | zero =>
      simp only [List.getElem?_cons_zero, Option.some.injEq] at h
      subst h
      cases hp
    | succ i => simp at h

def scope? (f : Forest) (i : Nat) : Option Scope := f.entries[i]?.map ChildScope.scope

def path (f : Forest) (i : Nat) : List Nat :=
  match h : f.entries[i]? with
  | none => []
  | some entry =>
    match hp : entry.parent with
    | none => [i]
    | some parent =>
      have := f.older i parent entry h hp
      i :: path f parent
termination_by i

def environment? (f : Forest) (i : Nat) : Option Environment :=
  match (f.path i).filterMap f.scope? with
  | [] => none
  | innermost :: enclosing => some ⟨innermost, enclosing⟩

def addChild (f : Forest) (parent : Nat) (h : parent < f.entries.length) : Forest where
  entries := f.entries ++ [⟨Scope.empty, some parent⟩]
  older := by
    intro i p entry hi hp
    rcases Nat.lt_or_ge i f.entries.length with hlt | hge
    · rw [List.getElem?_append_left hlt] at hi
      exact f.older i p entry hi hp
    · rw [List.getElem?_append_right hge] at hi
      cases hd : i - f.entries.length with
      | zero =>
        rw [hd, List.getElem?_cons_zero, Option.some.injEq] at hi
        subst hi
        cases hp
        omega
      | succ k => simp [hd] at hi

def setScope (f : Forest) (i : Nat) (s : Scope) : Forest where
  entries := f.entries.modify i ({ · with scope := s })
  older := by
    intro j p entry hj hp
    rw [List.getElem?_modify] at hj
    cases he : f.entries[j]? with
    | none => simp [he] at hj
    | some old =>
      rw [he, Option.map_eq_map, Option.map_some, Option.some.injEq] at hj
      subst hj
      refine f.older j p old he ?_
      split at hp <;> exact hp

def update (f : Forest) (i : Nat) (e : Environment) : Forest :=
  ((f.path i).zip e.scopes).foldl (fun f change => f.setScope change.1 change.2) f

end Forest

end LetLang
