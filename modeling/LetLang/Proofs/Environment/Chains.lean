import LetLang.Environment.Forest
import Mathlib.Data.List.Forall2
import Mathlib.Data.List.Nodup

namespace LetLang

namespace Forest

variable {f : Forest} {i j : Nat}

def parent? (f : Forest) (i : Nat) : Option (Option Nat) := f.entries[i]?.map ChildScope.parent

theorem path_eq (f : Forest) (i : Nat) :
    f.path i =
      match f.parent? i with
      | none => []
      | some none => [i]
      | some (some parent) => i :: f.path parent := by
  rw [path]
  split
  · rename_i absent
    have parents : f.parent? i = none := by rw [parent?, absent, Option.map_none]
    rw [parents]
  · rename_i entry found
    have parents : f.parent? i = some entry.parent := by rw [parent?, found, Option.map_some]
    split
    · rename_i root
      simp only [parents, root]
    · rename_i parent child
      simp only [parents, child]

theorem path_cases (f : Forest) (i : Nat) :
    f.scope? i = none ∧ f.path i = [] ∨
      ∃ s, f.scope? i = some s ∧
        (f.path i = [i] ∨ ∃ parent, parent < i ∧ f.path i = i :: f.path parent) := by
  rw [path_eq, parent?, scope?]
  cases found : f.entries[i]? with
  | none => exact .inl ⟨rfl, rfl⟩
  | some entry =>
    refine .inr ⟨entry.scope, rfl, ?_⟩
    cases child : entry.parent with
    | none => exact .inl (by simp only [Option.map_some, child])
    | some parent =>
      have lower := f.older i parent entry found child
      exact .inr ⟨parent, lower, by simp only [Option.map_some, child]⟩

theorem path_congr {g : Forest} (h : ∀ i, g.parent? i = f.parent? i) (i : Nat) :
    g.path i = f.path i := by
  induction i using Nat.strongRecOn with
  | ind i ih =>
    rw [path_eq, path_eq, h]
    rcases hp : f.parent? i with _ | _ | parent
    · rfl
    · rfl
    · obtain ⟨entry, found, child⟩ := Option.map_eq_some_iff.mp hp
      exact congrArg _ (ih parent (f.older i parent entry found child))

def Holds (f : Forest) (is : List Nat) (ss : List Scope) : Prop :=
  List.Forall₂ (fun i s => f.scope? i = some s) is ss

structure Descends (f : Forest) (i : Nat) (is : List Nat) : Prop where
  below : ∀ j ∈ is, j ≤ i
  distinct : is.Nodup
  held : f.Holds is (is.filterMap f.scope?)

theorem Descends.cons {is : List Nat} {s : Scope} (h : f.Descends j is) (hj : j < i)
    (hs : f.scope? i = some s) : f.Descends i (i :: is) where
  below := by
    intro k hk
    rcases List.mem_cons.mp hk with rfl | hk
    · exact Nat.le_refl k
    · exact Nat.le_trans (h.below k hk) (Nat.le_of_lt hj)
  distinct := by
    refine List.nodup_cons.mpr ⟨fun hi => ?_, h.distinct⟩
    exact absurd (h.below i hi) (by omega)
  held := by
    rw [List.filterMap_cons_some hs]
    exact .cons hs h.held

theorem path_descends (f : Forest) (i : Nat) : f.Descends i (f.path i) := by
  induction i using Nat.strongRecOn with
  | ind i ih =>
    rcases path_cases f i with ⟨_, path⟩ | ⟨s, found, path | ⟨parent, lower, path⟩⟩
    · rw [path]
      exact ⟨by simp, .nil, .nil⟩
    · rw [path]
      refine ⟨by simp, List.nodup_singleton i, ?_⟩
      rw [List.filterMap_cons_some found]
      exact .cons found .nil
    · rw [path]
      exact (ih parent lower).cons lower found

theorem environment?_holds {e : Environment} (h : f.environment? i = some e) :
    ∃ rest, f.path i = i :: rest ∧ f.Holds (i :: rest) e.scopes := by
  unfold environment? at h
  split at h
  · cases h
  · rename_i innermost enclosing scopes
    cases h
    have held := (path_descends f i).held
    rw [scopes] at held
    rcases path_cases f i with ⟨_, path⟩ | ⟨_, _, path | ⟨parent, _, path⟩⟩
    · rw [path] at held
      cases held
    · rw [path] at held
      exact ⟨[], path, held⟩
    · rw [path] at held
      exact ⟨f.path parent, path, held⟩

theorem path_setScope (f : Forest) (i : Nat) (s : Scope) (j : Nat) :
    (f.setScope i s).path j = f.path j := by
  refine path_congr (fun k => ?_) j
  rw [parent?, parent?, setScope, List.getElem?_modify]
  cases f.entries[k]? with
  | none => rfl
  | some entry =>
    by_cases hk : i = k
    · simp [hk]
    · simp [hk]

theorem scope?_innermost {e : Environment} (h : f.environment? i = some e) :
    f.scope? i = some e.innermost := by
  obtain ⟨rest, _, held⟩ := environment?_holds h
  cases held with
  | cons found _ => exact found

theorem scope?_setScope (f : Forest) (i : Nat) (s : Scope) (j : Nat) :
    (f.setScope i s).scope? j = (f.scope? j).map fun old => if i = j then s else old := by
  rw [scope?, scope?, setScope, List.getElem?_modify, Option.map_map]
  cases f.entries[j]? with
  | none => rfl
  | some entry =>
    by_cases h : i = j
    · simp [h]
    · simp [h]

theorem scope?_setScope_of_ne (h : i ≠ j) (s : Scope) : (f.setScope i s).scope? j = f.scope? j := by
  rw [scope?_setScope]
  simp only [if_neg h, Option.map_id']

theorem Holds.setScope {is : List Nat} {ss : List Scope} (h : f.Holds is ss) (hi : i ∉ is)
    (s : Scope) : (f.setScope i s).Holds is ss := by
  induction h with
  | nil => exact .nil
  | @cons j _ _ _ found _ ih =>
    rw [List.mem_cons, not_or] at hi
    exact .cons (by rw [scope?_setScope_of_ne hi.1, found]) (ih hi.2)

def setScopes (f : Forest) (is : List Nat) (ss : List Scope) : Forest :=
  (is.zip ss).foldl (fun f change => f.setScope change.1 change.2) f

theorem update_eq (f : Forest) (i : Nat) (e : Environment) :
    f.update i e = f.setScopes (f.path i) e.scopes :=
  rfl

theorem setScopes_cons (f : Forest) (i : Nat) (is : List Nat) (s : Scope) (ss : List Scope) :
    f.setScopes (i :: is) (s :: ss) = (f.setScope i s).setScopes is ss :=
  rfl

theorem setScope_same {s : Scope} (h : f.scope? i = some s) : f.setScope i s = f := by
  obtain ⟨entry, found, rfl⟩ := Option.map_eq_some_iff.mp h
  have same : f.entries.modify i ({ · with scope := entry.scope }) = f.entries := by
    apply List.ext_getElem?
    intro j
    rw [List.getElem?_modify]
    by_cases hj : i = j
    · subst hj
      simp [found]
    · simp [hj]
  cases f
  simp only [setScope, mk.injEq]
  exact same

theorem setScopes_same {is : List Nat} {ss : List Scope} (h : f.Holds is ss) :
    f.setScopes is ss = f := by
  induction h with
  | nil => rfl
  | cons found _ ih => rw [setScopes_cons, setScope_same found, ih]

theorem setScopes_first {is : List Nat} {s : Scope} {ss : List Scope}
    (held : f.Holds (i :: is) (s :: ss)) (distinct : (i :: is).Nodup) (s' : Scope) :
    f.setScopes (i :: is) (s' :: ss) = f.setScope i s' := by
  cases held with
  | cons _ held =>
    rw [setScopes_cons]
    exact setScopes_same (Holds.setScope held (List.nodup_cons.mp distinct).1 s')

theorem update_same {e : Environment} (h : f.environment? i = some e) : f.update i e = f := by
  obtain ⟨rest, path, held⟩ := environment?_holds h
  rw [update_eq, path, setScopes_same held]

theorem update_innermost {e : Environment} (h : f.environment? i = some e) (s : Scope) :
    f.update i { e with innermost := s } = f.setScope i s := by
  obtain ⟨rest, path, held⟩ := environment?_holds h
  have distinct := (path_descends f i).distinct
  rw [path] at distinct
  rw [update_eq, path]
  exact setScopes_first held distinct s

end Forest

end LetLang
