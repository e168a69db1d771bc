import LetLang.Value
import Mathlib.Data.List.Induction
import Mathlib.Data.List.Nodup

namespace LetLang

namespace Fields

variable {fields : Fields} {key : String} {value : Value}

theorem ofList_concat (entries : List (String × Value)) (key : String) (value : Value) :
    ofList (entries ++ [(key, value)]) = (ofList entries).put key value := by
  rw [ofList, List.foldl_append]
  rfl

theorem put_new (h : key ∉ fields.map Prod.fst) (value : Value) :
    fields.put key value = fields ++ [(key, value)] := by
  induction fields with
  | nil => rfl
  | cons entry rest ih =>
    obtain ⟨k, v⟩ := entry
    rw [List.map_cons, List.mem_cons, not_or] at h
    rw [put, if_neg (Ne.symm h.1), ih h.2, List.cons_append]

theorem nodup_put (h : (fields.map Prod.fst).Nodup) (key : String) (value : Value) :
    ((fields.put key value).map Prod.fst).Nodup := by
  rw [map_fst_put]
  split
  · exact h
  · rename_i new
    rw [← List.concat_eq_append]
    exact h.concat new

theorem nodup_ofList (entries : List (String × Value)) :
    ((ofList entries).map Prod.fst).Nodup := by
  induction entries using List.reverseRecOn with
  | nil => exact .nil
  | append_singleton entries entry ih =>
    rw [ofList_concat]
    exact nodup_put ih entry.1 entry.2

theorem ofList_of_nodup (h : (fields.map Prod.fst).Nodup) : ofList fields = fields := by
  induction fields using List.reverseRecOn with
  | nil => rfl
  | append_singleton fields entry ih =>
    rw [List.map_append, List.map_singleton, List.nodup_append] at h
    obtain ⟨distinct, _, apart⟩ := h
    have new : entry.1 ∉ fields.map Prod.fst := fun old =>
      apart entry.1 old entry.1 (List.mem_singleton.mpr rfl) rfl
    rw [ofList_concat, ih distinct, put_new new]

theorem ofList_ofList (entries : List (String × Value)) :
    ofList (ofList entries) = ofList entries :=
  ofList_of_nodup (nodup_ofList entries)

theorem keys_ofList (entries : List (String × Value)) :
    (ofList entries).map Prod.fst = (entries.map Prod.fst).eraseDups := by
  induction entries using List.reverseRecOn with
  | nil => rfl
  | append_singleton entries entry ih =>
    obtain ⟨key, value⟩ := entry
    rw [ofList_concat, map_fst_put, ih, List.map_append, List.eraseDups_append]
    by_cases known : key ∈ entries.map Prod.fst
    · simp [known, List.removeAll]
    · simp [known, List.removeAll, List.eraseDups_cons]

theorem get?_ofList_last (front : List (String × Value)) {behind : List (String × Value)}
    (h : key ∉ behind.map Prod.fst) (value : Value) :
    (ofList (front ++ (key, value) :: behind)).get? key = some value := by
  induction behind using List.reverseRecOn with
  | nil => rw [ofList_concat, get?_put, if_pos rfl]
  | append_singleton behind last ih =>
    rw [List.map_append, List.mem_append, not_or] at h
    have other : key ≠ last.1 := fun same => h.2 (List.mem_singleton.mpr same)
    rw [← List.cons_append, ← List.append_assoc, ofList_concat, get?_put, if_neg other]
    exact ih h.1

theorem mem_of_get? (h : fields.get? key = some value) : (key, value) ∈ fields := by
  obtain ⟨entry, found, rfl⟩ := Option.map_eq_some_iff.mp h
  have named : entry.1 = key := by simpa using List.find?_some found
  exact named ▸ List.mem_of_find?_eq_some found

theorem mem_put {entry : String × Value} (h : entry ∈ fields.put key value) :
    entry = (key, value) ∨ entry ∈ fields := by
  induction fields with
  | nil => exact .inl (List.mem_singleton.mp h)
  | cons first rest ih =>
    obtain ⟨k, v⟩ := first
    rw [put] at h
    split at h
    · exact (List.mem_cons.mp h).imp_right (List.mem_cons_of_mem _)
    · rcases List.mem_cons.mp h with rfl | h
      · exact .inr List.mem_cons_self
      · exact (ih h).imp_right (List.mem_cons_of_mem _)

structure Sound (P : Value → Prop) (fields : Fields) : Prop where
  distinct : (fields.map Prod.fst).Nodup
  values : ∀ entry ∈ fields, P entry.2

theorem Sound.nil (P : Value → Prop) : Sound P [] := ⟨.nil, by simp⟩

theorem Sound.put {P : Value → Prop} (h : Sound P fields) (key : String) (hv : P value) :
    Sound P (fields.put key value) where
  distinct := nodup_put h.distinct key value
  values := by
    intro entry member
    rcases mem_put member with rfl | old
    · exact hv
    · exact h.values entry old

theorem Sound.ofList {P : Value → Prop} (h : Sound P fields) : Sound P (Fields.ofList fields) := by
  rw [ofList_of_nodup h.distinct]
  exact h

end Fields

namespace Value

inductive Inside (w : Value) : Value → Prop where
  | self : Inside w w
  | field {fields : List (String × Value)} {key : String} {v : Value} (h : Inside w v)
      (hm : (key, v) ∈ fields) : Inside w (.object fields)

def KeysDistinct (v : Value) : Prop :=
  ∀ fields, (Value.object fields).Inside v → (fields.map Prod.fst).Nodup

theorem keysDistinct_atom {v : Value} (h : ∀ fields, v ≠ .object fields) : v.KeysDistinct := by
  intro fields inside
  cases inside with
  | self => exact absurd rfl (h fields)
  | field _ _ => exact absurd rfl (h _)

theorem keysDistinct_object {fields : Fields} (h : fields.Sound KeysDistinct) :
    (object fields).KeysDistinct := by
  intro others inside
  cases inside with
  | self => exact h.distinct
  | field deeper member => exact h.values _ member others deeper

end Value

end LetLang
