import LetLang.Value

namespace LetLang

structure Binding where
  name : String
  value : Value
  constant : Bool

inductive NameFault where
  | redeclared (name : String)
  | constant (name : String)
  | unbound (name : String)
  deriving DecidableEq, Repr

structure Scope where
  values : List (String × Value)
  constants : List String
  distinct : (values.map Prod.fst).Nodup
  declared : constants.Sublist (values.map Prod.fst)

namespace Scope

def names (s : Scope) : List String := s.values.map Prod.fst

def bindings (s : Scope) : List Binding :=
  s.values.map fun v => ⟨v.1, v.2, v.1 ∈ s.constants⟩

def empty : Scope := ⟨[], [], .nil, .slnil⟩

def find? (s : Scope) (name : String) : Option Binding := s.bindings.find? (·.name == name)

def binds (s : Scope) (name : String) : Bool := (s.find? name).isSome

theorem names_eq (s : Scope) : s.names = s.bindings.map Binding.name := by
  rw [names, bindings, List.map_map]
  rfl

theorem binds_iff {s : Scope} {name : String} : s.binds name ↔ name ∈ s.names := by
  simp [binds, find?, names_eq]

def add (s : Scope) (b : Binding) (h : b.name ∉ s.names) : Scope where
  values := s.values ++ [(b.name, b.value)]
  constants := if b.constant then s.constants ++ [b.name] else s.constants
  distinct := by
    rw [List.map_append, List.nodup_append]
    refine ⟨s.distinct, by simp, ?_⟩
    intro name hname other hother
    simp only [List.map_cons, List.map_nil, List.mem_singleton] at hother
    subst hother
    exact fun he => h (he ▸ hname)
  declared := by
    rw [List.map_append]
    split
    · exact s.declared.append (.refl _)
    · exact s.declared.trans (List.sublist_append_left _ _)

def overwrite (name : String) (value : Value) (values : List (String × Value)) :
    List (String × Value) :=
  values.map fun v => if v.1 = name then (v.1, value) else v

theorem map_fst_overwrite (name : String) (value : Value) (values : List (String × Value)) :
    (overwrite name value values).map Prod.fst = values.map Prod.fst := by
  rw [overwrite, List.map_map]
  apply List.map_congr_left
  intro v _
  simp only [Function.comp]
  split <;> rfl

def set (s : Scope) (name : String) (value : Value) : Scope where
  values := overwrite name value s.values
  constants := s.constants
  distinct := by
    rw [map_fst_overwrite]
    exact s.distinct
  declared := by
    rw [map_fst_overwrite]
    exact s.declared

theorem mem_constants_add {s : Scope} {b : Binding} (h : b.name ∉ s.names) {name : String} :
    name ∈ (s.add b h).constants ↔ name ∈ s.constants ∨ b.constant ∧ name = b.name := by
  rw [add]
  split
  · rename_i constant
    simp [constant]
  · rename_i mutable
    simp [mutable]

theorem bindings_add {s : Scope} {b : Binding} (h : b.name ∉ s.names) :
    (s.add b h).bindings = s.bindings ++ [b] := by
  have unlisted : b.name ∉ s.constants := fun listed => h (s.declared.subset listed)
  have former : ∀ v ∈ s.values, v.1 ≠ b.name := by
    intro v hv same
    exact h (same ▸ List.mem_map_of_mem hv)
  have values : (s.add b h).values = s.values ++ [(b.name, b.value)] := rfl
  simp only [bindings, values, mem_constants_add, List.map_append, List.map_cons, List.map_nil]
  congr 1
  · apply List.map_congr_left
    intro v hv
    simp [former v hv]
  · simp [unlisted]

theorem bindings_set (s : Scope) (name : String) (value : Value) : (s.set name value).bindings =
    s.bindings.map fun b => if b.name = name then { b with value } else b := by
  simp only [bindings, set, overwrite, List.map_map]
  apply List.map_congr_left
  intro v _
  simp only [Function.comp]
  split <;> rfl

def global : Scope where
  values := [("true", .boolean true), ("false", .boolean false), ("null", .null)]
  constants := ["true", "false", "null"]
  distinct := by simp
  declared := .refl _

end Scope

structure Environment where
  innermost : Scope
  enclosing : List Scope

namespace Environment

def empty : Environment := ⟨Scope.empty, []⟩

def global : Environment := ⟨Scope.global, []⟩

def scopes (e : Environment) : List Scope := e.innermost :: e.enclosing

def find? (e : Environment) (name : String) : Option Binding :=
  e.scopes.findSome? (·.find? name)

def resolve (e : Environment) (name : String) : Except NameFault Nat :=
  match e.scopes.findIdx? (·.binds name) with
  | some i => .ok i
  | none => .error (.unbound name)

def lookup (e : Environment) (name : String) : Except NameFault Value :=
  match e.find? name with
  | some b => .ok b.value
  | none => .error (.unbound name)

def isConstant (e : Environment) (name : String) : Except NameFault Bool :=
  match e.find? name with
  | some b => .ok b.constant
  | none => .error (.unbound name)

def contains (e : Environment) (name : String) : Bool := (e.find? name).isSome

def declare (e : Environment) (name : String) (value : Value) (constant : Bool) :
    Except NameFault Environment :=
  if h : e.innermost.binds name then .error (.redeclared name)
  else .ok { e with
    innermost := e.innermost.add ⟨name, value, constant⟩ (fun hn => h (Scope.binds_iff.mpr hn)) }

def setNearest (name : String) (value : Value) : List Scope → List Scope
  | [] => []
  | s :: rest => if s.binds name then s.set name value :: rest else s :: setNearest name value rest

def assign (e : Environment) (name : String) (value : Value) : Except NameFault Environment :=
  match e.find? name with
  | none => .error (.unbound name)
  | some b =>
    if b.constant then .error (.constant name)
    else if e.innermost.binds name then .ok { e with innermost := e.innermost.set name value }
    else .ok { e with enclosing := setNearest name value e.enclosing }

theorem scopes_assign {e e' : Environment} {name : String} {value : Value}
    (h : e.assign name value = .ok e') : e'.scopes = setNearest name value e.scopes := by
  unfold assign at h
  split at h
  · cases h
  · split at h
    · cases h
    · split at h
      · rename_i hb
        cases h
        simp [scopes, setNearest, hb]
      · rename_i hb
        cases h
        simp [scopes, setNearest, hb]

end Environment

end LetLang
