import LetLang.Environment
import Mathlib.Data.List.Nodup
import Mathlib.Data.List.Perm.Subperm

namespace LetLang

theorem eq_filter_of_sublist {α : Type} [DecidableEq α] {as bs : List α} (h : as.Sublist bs)
    (distinct : bs.Nodup) : as = bs.filter (· ∈ as) := by
  have all : as.filter (· ∈ as) = as := List.filter_eq_self.mpr (by simp)
  have within : bs.filter (· ∈ as) ⊆ as := by
    intro a ha
    simpa using List.of_mem_filter ha
  have shorter : (bs.filter (· ∈ as)).length ≤ as.length :=
    (List.subperm_of_subset (distinct.filter _) within).length_le
  have kept := h.filter (· ∈ as)
  rw [all] at kept
  exact kept.eq_of_length_le shorter

namespace Scope

theorem nodup_bindings (s : Scope) : (s.bindings.map Binding.name).Nodup :=
  s.names_eq ▸ s.distinct

theorem mem_names {s : Scope} {name : String} :
    name ∈ s.names ↔ ∃ b ∈ s.bindings, b.name = name := by
  rw [names_eq, List.mem_map]

theorem eq_of_name_eq {s : Scope} {b b' : Binding} (hb : b ∈ s.bindings) (hb' : b' ∈ s.bindings)
    (h : b.name = b'.name) : b = b' :=
  List.inj_on_of_nodup_map s.nodup_bindings hb hb' h

theorem constants_subset (s : Scope) : s.constants ⊆ s.names :=
  s.declared.subset

theorem constants_eq (s : Scope) :
    s.constants = (s.bindings.filter (·.constant)).map Binding.name := by
  have listed : (s.bindings.filter (·.constant)).map Binding.name =
      s.names.filter (· ∈ s.constants) := by
    rw [names, bindings, List.filter_map, List.filter_map, List.map_map]
    rfl
  rw [listed]
  exact eq_filter_of_sublist s.declared s.distinct

theorem eq_of_bindings_eq {s s' : Scope} (h : s.bindings = s'.bindings) : s = s' := by
  have values (s : Scope) : s.values = s.bindings.map fun b => (b.name, b.value) := by
    rw [bindings, List.map_map]
    exact (List.map_id _).symm
  have same_values : s.values = s'.values := by rw [values, values, h]
  have same_constants : s.constants = s'.constants := by rw [constants_eq, constants_eq, h]
  cases s
  cases s'
  obtain rfl := same_values
  obtain rfl := same_constants
  rfl

def ofBindings (bs : List Binding) (distinct : (bs.map Binding.name).Nodup) : Scope where
  values := bs.map fun b => (b.name, b.value)
  constants := (bs.filter (·.constant)).map Binding.name
  distinct := by
    rw [List.map_map]
    exact distinct
  declared := by
    rw [List.map_map]
    exact List.filter_sublist.map Binding.name

@[simp] theorem bindings_ofBindings {bs : List Binding} (distinct : (bs.map Binding.name).Nodup) :
    (ofBindings bs distinct).bindings = bs := by
  rw [bindings, ofBindings, List.map_map]
  refine (List.map_congr_left fun b hb => ?_).trans (List.map_id bs)
  have flag : b.name ∈ (bs.filter (·.constant)).map Binding.name ↔ b.constant := by
    constructor
    · intro listed
      obtain ⟨b', hb', same⟩ := List.mem_map.mp listed
      obtain ⟨member, constant⟩ := List.mem_filter.mp hb'
      exact List.inj_on_of_nodup_map distinct member hb same ▸ constant
    · intro constant
      exact List.mem_map_of_mem (List.mem_filter.mpr ⟨hb, constant⟩)
  simp [flag]

end Scope

end LetLang
