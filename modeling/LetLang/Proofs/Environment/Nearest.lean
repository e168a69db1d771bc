import LetLang.Proofs.Environment.Agreement
import LetLang.Proofs.Environment.Histories

namespace LetLang

namespace Forest

variable {f g : Forest} {i d : Nat} {name : String} {b : Binding} {bs : List Binding}

def Binds (f : Forest) (i : Nat) (name : String) : Prop := ∃ b ∈ f.bindings i, b.name = name

def HoldsConstant (f : Forest) (i : Nat) (name : String) : Prop :=
  ∃ b ∈ f.bindings i, b.name = name ∧ b.constant

def Reaches (f : Forest) (i d : Nat) (name : String) : Prop :=
  ∃ inner outer, f.path i = inner ++ d :: outer ∧ ∀ j ∈ inner, ¬ f.Binds j name

structure Nearest (f : Forest) (i d : Nat) (name : String) : Prop where
  reached : f.Reaches i d name
  binds : f.Binds d name

def binding? (f : Forest) (name : String) (i : Nat) : Option Binding :=
  (f.bindings i).find? (·.name == name)

def find? (f : Forest) (i : Nat) (name : String) : Option Binding :=
  (f.path i).findSome? (f.binding? name)

theorem binding?_eq_none_iff : f.binding? name i = none ↔ ¬ f.Binds i name := by
  simp [binding?, Binds]

theorem isSome_binding?_iff : (f.binding? name i).isSome ↔ f.Binds i name := by
  rw [← not_iff_not, ← binding?_eq_none_iff, Option.not_isSome_iff_eq_none]

theorem binding?_of_scope? {s : Scope} (h : f.scope? i = some s) (name : String) :
    f.binding? name i = s.find? name := by
  rw [binding?, bindings_of_scope? h, Scope.find?]

theorem Holds.findSome? {is : List Nat} {ss : List Scope} (h : f.Holds is ss) (name : String) :
    ss.findSome? (·.find? name) = is.findSome? (f.binding? name) := by
  induction h with
  | nil => rfl
  | cons found _ ih => rw [List.findSome?_cons, List.findSome?_cons, binding?_of_scope? found, ih]

theorem find?_environment {e : Environment} (h : f.environment? i = some e) (name : String) :
    e.find? name = f.find? i name := by
  obtain ⟨rest, path, held⟩ := environment?_holds h
  rw [Environment.find?, held.findSome?, find?, path]

theorem exists_environment_iff : (∃ e, f.environment? i = some e) ↔ f.path i ≠ [] := by
  constructor
  · rintro ⟨e, he⟩
    obtain ⟨rest, path, _⟩ := environment?_holds he
    rw [path]
    exact List.cons_ne_nil i rest
  · intro inhabited
    have held := (path_descends f i).held
    unfold environment?
    split
    · rename_i none
      rw [none] at held
      exact absurd (List.forall₂_nil_right_iff.mp held) inhabited
    · exact ⟨_, rfl⟩

theorem nearest_iff :
    f.Nearest i d name ↔ (f.path i).find? (fun j => (f.binding? name j).isSome) = some d := by
  rw [List.find?_eq_some_iff_append, isSome_binding?_iff]
  constructor
  · rintro ⟨⟨inner, outer, path, hidden⟩, binds⟩
    refine ⟨binds, inner, outer, path, fun j hj => ?_⟩
    simpa [binding?_eq_none_iff] using hidden j hj
  · rintro ⟨binds, inner, outer, path, hidden⟩
    refine ⟨⟨inner, outer, path, fun j hj => ?_⟩, binds⟩
    simpa [binding?_eq_none_iff] using hidden j hj

theorem Nearest.unique {d' : Nat} (h : f.Nearest i d name) (h' : f.Nearest i d' name) : d = d' :=
  Option.some.inj ((nearest_iff.mp h).symm.trans (nearest_iff.mp h'))

theorem Nearest.mem_path (h : f.Nearest i d name) : d ∈ f.path i :=
  List.mem_of_find?_eq_some (nearest_iff.mp h)

theorem find?_eq_none_iff : f.find? i name = none ↔ ∀ j ∈ f.path i, ¬ f.Binds j name := by
  simp only [find?, List.findSome?_eq_none_iff, binding?_eq_none_iff]

theorem exists_nearest (h : f.find? i name = some b) :
    ∃ d, f.Nearest i d name ∧ f.binding? name d = some b := by
  obtain ⟨inner, d, outer, path, found, hidden⟩ := List.findSome?_eq_some_iff.mp h
  refine ⟨d, ⟨⟨inner, outer, path, fun j hj => ?_⟩, ?_⟩, found⟩
  · exact binding?_eq_none_iff.mp (hidden j hj)
  · exact isSome_binding?_iff.mp (found ▸ rfl)

theorem Nearest.exists_scope (h : f.Nearest i d name) : ∃ s, f.scope? d = some s := by
  obtain ⟨b, hb, _⟩ := h.binds
  rw [bindings] at hb
  cases found : f.scope? d with
  | some s => exact ⟨s, rfl⟩
  | none =>
    rw [found] at hb
    cases hb

theorem holdsConstant_of_binding? (found : f.binding? name d = some b) (h : b.constant) :
    f.HoldsConstant d name :=
  ⟨b, List.mem_of_find?_eq_some found, by simpa using List.find?_some found, h⟩

theorem not_constant_of_mutable (found : f.binding? name d = some b) (h : b.constant = false)
    {s : Scope} (hs : f.scope? d = some s) : ¬ f.HoldsConstant d name := by
  rintro ⟨b', hb', same, constant⟩
  rw [bindings_of_scope? hs] at hb'
  rw [binding?_of_scope? hs] at found
  have member : b ∈ s.bindings := List.mem_of_find?_eq_some found
  rw [Scope.eq_of_name_eq hb' member (same.trans (Scope.name_of_find? found).symm), h] at constant
  cases constant

theorem Holds.findIdx? {is : List Nat} {ss : List Scope} (h : f.Holds is ss) {k : Nat}
    (place : ss.findIdx? (·.binds name) = some k) :
    ∃ inner d outer, is = inner ++ d :: outer ∧ inner.length = k ∧
      (∀ j ∈ inner, ¬ f.Binds j name) ∧ f.Binds d name := by
  induction h generalizing k with
  | nil => cases place
  | @cons i s is ss found _ ih =>
    have bound : s.binds name ↔ f.Binds i name := by
      rw [← isSome_binding?_iff, binding?_of_scope? found, ← Scope.binds]
    by_cases here : s.binds name
    · rw [List.findIdx?_cons, if_pos here] at place
      exact ⟨[], i, is, rfl, Option.some.inj place, by simp, bound.mp here⟩
    · rw [List.findIdx?_cons, if_neg here] at place
      obtain ⟨k, behind, rfl⟩ := Option.map_eq_some_iff.mp place
      obtain ⟨inner, d, outer, rfl, length, hidden, binds⟩ := ih behind
      refine ⟨i :: inner, d, outer, rfl, congrArg (· + 1) length, ?_, binds⟩
      exact List.forall_mem_cons.mpr ⟨mt bound.mpr here, hidden⟩

theorem nearest_of_resolve {e : Environment} (h : f.environment? i = some e) {k : Nat}
    (resolved : e.resolve name = .ok k) : ∃ d, (f.path i)[k]? = some d ∧ f.Nearest i d name := by
  unfold Environment.resolve at resolved
  split at resolved
  · rename_i place
    cases resolved
    obtain ⟨rest, path, held⟩ := environment?_holds h
    obtain ⟨inner, d, outer, way, rfl, hidden, binds⟩ := held.findIdx? place
    rw [← path] at way
    refine ⟨d, ?_, ⟨inner, outer, way, hidden⟩, binds⟩
    rw [way, List.getElem?_append_right (Nat.le_refl _), Nat.sub_self, List.getElem?_cons_zero]
  · cases resolved

structure Becomes (f g : Forest) (d : Nat) (bs : List Binding) : Prop where
  path : ∀ i, g.path i = f.path i
  there : g.bindings d = bs
  elsewhere : ∀ i, i ≠ d → g.bindings i = f.bindings i

namespace Becomes

theorem binding?_there (h : f.Becomes g d bs) (name : String) :
    g.binding? name d = bs.find? (·.name == name) := by
  rw [binding?, h.there]

theorem binding?_elsewhere (h : f.Becomes g d bs) (hi : i ≠ d) (name : String) :
    g.binding? name i = f.binding? name i := by
  rw [binding?, binding?, h.elsewhere i hi]

theorem find?_same (h : f.Becomes g d bs)
    (same : bs.find? (·.name == name) = f.binding? name d) (i : Nat) :
    g.find? i name = f.find? i name := by
  rw [find?, find?, h.path]
  congr 1
  funext j
  by_cases hj : j = d
  · rw [hj, h.binding?_there, same]
  · exact h.binding?_elsewhere hj name

theorem find?_away (h : f.Becomes g d bs) (away : ¬ f.Reaches i d name) :
    g.find? i name = f.find? i name := by
  unfold Reaches at away
  rw [find?, find?, h.path]
  generalize f.path i = is at away ⊢
  induction is with
  | nil => rfl
  | cons j is ih =>
    have other : j ≠ d := by
      rintro rfl
      exact away ⟨[], is, rfl, nofun⟩
    rw [List.findSome?_cons, List.findSome?_cons, h.binding?_elsewhere other]
    cases found : f.binding? name j with
    | some b => rfl
    | none =>
      apply ih
      rintro ⟨inner, outer, rfl, hidden⟩
      refine away ⟨j :: inner, outer, rfl, List.forall_mem_cons.mpr ⟨?_, hidden⟩⟩
      exact binding?_eq_none_iff.mp found

theorem find?_reached (h : f.Becomes g d bs) (reached : f.Reaches i d name)
    (found : bs.find? (·.name == name) = some b) : g.find? i name = some b := by
  obtain ⟨inner, outer, path, hidden⟩ := reached
  have distinct := (path_descends f i).distinct
  rw [path] at distinct
  have skipped : inner.findSome? (g.binding? name) = none := by
    rw [List.findSome?_eq_none_iff]
    intro j hj
    have other : j ≠ d := by
      rintro rfl
      exact (List.nodup_append.mp distinct).2.2 j hj j List.mem_cons_self rfl
    rw [h.binding?_elsewhere other]
    exact binding?_eq_none_iff.mpr (hidden j hj)
  rw [find?, h.path, path, List.findSome?_append, skipped, Option.none_or, List.findSome?_cons,
    h.binding?_there, found]

end Becomes

end Forest

end LetLang
