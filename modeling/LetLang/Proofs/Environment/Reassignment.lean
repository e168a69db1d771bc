import LetLang.Proofs.Environment.Agreement

namespace LetLang

structure Binding.Reassigned (names : List String) (b b' : Binding) : Prop where
  name : b'.name = b.name
  constant : b'.constant = b.constant
  value : b.constant ∨ b.name ∉ names → b'.value = b.value

theorem Binding.Reassigned.mono {names more : List String} {b b' : Binding}
    (h : b.Reassigned names b') (hm : names ⊆ more) : b.Reassigned more b' where
  name := h.name
  constant := h.constant
  value held := h.value (held.imp_right fun spared listed => spared (hm listed))

theorem Binding.Reassigned.eq {b b' : Binding} (h : b.Reassigned [] b') : b = b' := by
  obtain ⟨name, constant, value⟩ := h
  cases b
  cases b'
  rw [mk.injEq]
  exact ⟨name.symm, (value (.inr List.not_mem_nil)).symm, constant.symm⟩

namespace Scope

variable {names : List String} {s s' : Scope}

def Reassigned (names : List String) (s s' : Scope) : Prop :=
  List.Forall₂ (Binding.Reassigned names) s.bindings s'.bindings

theorem find?_of_mem {b : Binding} (h : b ∈ s.bindings) : s.find? b.name = some b := by
  cases found : s.find? b.name with
  | none => exact absurd (mem_names.mpr ⟨b, h, rfl⟩) (find?_eq_none_iff.mp found)
  | some b' =>
    have member : b' ∈ s.bindings := List.mem_of_find?_eq_some found
    rw [eq_of_name_eq member h (name_of_find? found)]

theorem Reassigned.of_kept (h : Kept s.bindings s'.bindings) (ha : Agree (· ∉ names) s s') :
    s.Reassigned names s' := by
  apply List.forall₂_iff_zip.mpr
  refine ⟨h.length_eq, ?_⟩
  intro b b' place
  obtain ⟨hb, hb'⟩ := List.of_mem_zip place
  have keeps : b.Keeps b' := List.forall₂_zip h place
  refine ⟨keeps.name, keeps.constant, ?_⟩
  rintro (constant | spared)
  · exact keeps.value constant
  · have here := find?_of_mem hb'
    rw [keeps.name, ← ha b.name spared, find?_of_mem hb] at here
    rw [Option.some.inj here]

theorem Reassigned.eq (h : s.Reassigned [] s') : s = s' := by
  have same : List.Forall₂ (· = ·) s.bindings s'.bindings := by
    apply h.imp
    intro b b' hb
    exact hb.eq
  rw [List.forall₂_eq_eq_eq] at same
  exact eq_of_bindings_eq same

end Scope

namespace Environment

variable {names : List String} {e e' : Environment}

def Reassigned (names : List String) (e e' : Environment) : Prop :=
  List.Forall₂ (Scope.Reassigned names) e.scopes e'.scopes

theorem Reassigned.of_kept (h : KeptAll e.scopes e'.scopes) (ha : e.Agree (· ∉ names) e') :
    e.Reassigned names e' := by
  refine List.Forall₂.mp ?_ h ha
  intro s s' kept agree
  exact .of_kept kept agree

theorem Reassigned.refl (e : Environment) : e.Reassigned names e :=
  .of_kept (.refl e.scopes) (.refl e)

theorem Reassigned.mono {more : List String} (h : e.Reassigned names e') (hm : names ⊆ more) :
    e.Reassigned more e' :=
  h.imp fun _ _ hs => hs.imp fun _ _ hb => hb.mono hm

theorem Reassigned.eq (h : e.Reassigned [] e') : e = e' := by
  have same : List.Forall₂ (· = ·) e.scopes e'.scopes := by
    apply h.imp
    intro s s' hs
    exact hs.eq
  rw [List.forall₂_eq_eq_eq] at same
  cases e
  cases e'
  obtain ⟨rfl, rfl⟩ := List.cons.inj same
  rfl

end Environment

end LetLang
