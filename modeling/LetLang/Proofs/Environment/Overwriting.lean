import LetLang.Proofs.Environment.Visibility

namespace LetLang.Environment

variable {e e' e'' : Environment} {name : String} {names : List String} {value : Value}

inductive Refuses (e : Environment) (name : String) : NameFault → Prop where
  | unbound (h : e.contains name = false) : Refuses e name (.unbound name)
  | constant (h : e.isConstant name = .ok true) : Refuses e name (.constant name)

structure Overwritten (names : List String) (value : Value) (e e' : Environment) : Prop where
  held : ∀ name ∈ names, e'.lookup name = .ok value
  bindings : ∀ i : Nat, (e'.scopes[i]?).map Scope.bindings =
    (e.scopes[i]?).map fun s => s.bindings.map fun b =>
      if b.name ∈ names ∧ e.resolve b.name = .ok i then { b with value } else b

theorem Refuses.of_outline {fault : NameFault} (h : e.outline = e'.outline)
    (refuses : e.Refuses name fault) : e'.Refuses name fault := by
  cases refuses with
  | unbound absent =>
    refine .unbound ?_
    rw [contains, ← Option.isSome_map, constant_eq_of_outline h, Option.isSome_map] at absent
    exact absent
  | constant held => exact .constant (isConstant_of_outline h name ▸ held)

theorem Refuses.not_mutable {fault : NameFault} (refuses : e.Refuses name fault) :
    e.isConstant name ≠ .ok false := by
  intro mutable
  cases refuses with
  | unbound absent =>
    rw [contains, Option.isSome_eq_false_iff, Option.isNone_iff_eq_none] at absent
    simp only [isConstant, absent] at mutable
    cases mutable
  | constant held =>
    rw [held] at mutable
    cases mutable

theorem assign_or_refuses (e : Environment) (name : String) (value : Value) :
    (e.isConstant name = .ok false ∧ ∃ e', e.assign name value = .ok e') ∨
    ∃ fault, e.Refuses name fault ∧ e.assign name value = .error fault := by
  rcases e.assign_cases name value with ⟨found, refused⟩ | ⟨b, found, constant, refused⟩ |
    ⟨b, e', found, mutable, assigned, _⟩
  · exact .inr ⟨_, .unbound (by rw [contains, found, Option.isSome_none]), refused⟩
  · exact .inr ⟨_, .constant (by simp only [isConstant, found, constant]), refused⟩
  · exact .inl ⟨by simp only [isConstant, found, mutable], e', assigned⟩

theorem getElem?_setNearest (name : String) (value : Value) (ss : List Scope) (i : Nat) :
    (setNearest name value ss)[i]? =
      (ss[i]?).map fun s =>
        if ss.findIdx? (·.binds name) = some i then s.set name value else s := by
  induction ss generalizing i with
  | nil => rfl
  | cons s ss ih =>
    rw [setNearest, List.findIdx?_cons]
    by_cases bound : s.binds name
    · rw [if_pos bound, if_pos bound]
      cases i with
      | zero => rfl
      | succ i => simp
    · rw [if_neg bound, if_neg bound]
      cases i with
      | zero => simp
      | succ i => simp [ih]

theorem bindings_assign (h : e.assign name value = .ok e') (i : Nat) :
    (e'.scopes[i]?).map Scope.bindings =
      (e.scopes[i]?).map fun s => s.bindings.map fun b =>
        if b.name = name ∧ e.resolve b.name = .ok i then { b with value } else b := by
  have near : e.resolve name = .ok i ↔ e.scopes.findIdx? (·.binds name) = some i := by
    rw [resolve]
    cases e.scopes.findIdx? (·.binds name) <;> simp
  rw [scopes_assign h, getElem?_setNearest, Option.map_map]
  congr 1
  funext s
  rw [Function.comp]
  by_cases here : e.resolve name = .ok i
  · rw [if_pos (near.mp here), Scope.bindings_set]
    apply List.map_congr_left
    intro b _
    by_cases same : b.name = name
    · rw [if_pos same, if_pos ⟨same, same ▸ here⟩]
    · rw [if_neg same, if_neg fun both => same both.1]
  · rw [if_neg (mt near.mpr here)]
    refine (List.map_id'' ?_ s.bindings).symm
    intro b
    rw [if_neg]
    rintro ⟨rfl, there⟩
    exact here there

namespace Overwritten

theorem refl (value : Value) (e : Environment) : e.Overwritten [] value e where
  held := nofun
  bindings i := by simp

theorem outline (h : e.Overwritten names value e') : e'.outline = e.outline := by
  have sketch (e : Environment) (i : Nat) : e.outline[i]? =
      ((e.scopes[i]?).map Scope.bindings).map fun bs => bs.map fun b => (b.name, b.constant) := by
    rw [Environment.outline, List.getElem?_map, Option.map_map]
    rfl
  apply List.ext_getElem?
  intro i
  rw [sketch, sketch, h.bindings, Option.map_map, Option.map_map]
  congr 1
  funext s
  rw [Function.comp, Function.comp, List.map_map]
  apply List.map_congr_left
  intro b _
  rw [Function.comp]
  split <;> rfl

theorem assign (h : e.Overwritten names value e')
    (assigned : e'.assign name value = .ok e'') : e.Overwritten (name :: names) value e'' where
  held := by
    obtain ⟨b, found, new⟩ := find?_assign_self assigned
    intro other listed
    by_cases same : other = name
    · rw [same, lookup, found, ← new]
    · have earlier := h.held other ((List.mem_cons.mp listed).resolve_left same)
      rwa [lookup, find?_assign_of_ne assigned same, ← lookup]
  bindings i := by
    have stays := resolve_of_outline h.outline
    have former : (e'.scopes[i]?).map (fun s => s.bindings.map fun b =>
        if b.name = name ∧ e'.resolve b.name = .ok i then { b with value } else b) =
        ((e'.scopes[i]?).map Scope.bindings).map fun bs => bs.map fun b =>
          if b.name = name ∧ e.resolve b.name = .ok i then { b with value } else b := by
      rw [Option.map_map]
      simp only [stays]
      rfl
    rw [bindings_assign assigned, former, h.bindings, Option.map_map]
    congr 1
    funext s
    rw [Function.comp, List.map_map]
    apply List.map_congr_left
    intro b _
    by_cases here : e.resolve b.name = .ok i
    · by_cases earlier : b.name ∈ names
      · simp [here, earlier]
      · simp [here, earlier]
    · simp [here]

end Overwritten

end LetLang.Environment
