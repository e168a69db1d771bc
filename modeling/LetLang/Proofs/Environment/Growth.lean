import LetLang.Proofs.Environment.Scopes
import LetLang.Proofs.Evaluation.Closure
import Mathlib.Data.List.Forall2

namespace LetLang

structure Binding.Keeps (b b' : Binding) : Prop where
  name : b'.name = b.name
  constant : b'.constant = b.constant
  value : b.constant → b'.value = b.value

theorem Binding.Keeps.refl (b : Binding) : b.Keeps b := ⟨rfl, rfl, fun _ => rfl⟩

theorem Binding.Keeps.trans {a b c : Binding} (h : a.Keeps b) (h' : b.Keeps c) : a.Keeps c where
  name := h'.name.trans h.name
  constant := h'.constant.trans h.constant
  value := by
    intro ha
    have hb : b.constant := h.constant.trans ha
    rw [h'.value hb, h.value ha]

theorem forall₂_trans {α : Type} {R : α → α → Prop} (h : ∀ a b c, R a b → R b c → R a c)
    {as bs cs : List α} (hab : List.Forall₂ R as bs) (hbc : List.Forall₂ R bs cs) :
    List.Forall₂ R as cs := by
  induction hab generalizing cs with
  | nil => exact hbc
  | cons head _ ih =>
    cases hbc with
    | cons head' rest => exact .cons (h _ _ _ head head') (ih rest)

def Kept (bs bs' : List Binding) : Prop := List.Forall₂ Binding.Keeps bs bs'

namespace Kept

theorem refl (bs : List Binding) : Kept bs bs :=
  List.forall₂_same.mpr fun b _ => Binding.Keeps.refl b

theorem trans {as bs cs : List Binding} (h : Kept as bs) (h' : Kept bs cs) : Kept as cs := by
  refine forall₂_trans ?_ h h'
  exact fun _ _ _ => Binding.Keeps.trans

theorem append {as bs cs ds : List Binding} (h : Kept as bs) (h' : Kept cs ds) :
    Kept (as ++ cs) (bs ++ ds) :=
  List.rel_append h h'

theorem trans_append {as bs cs ds ds' : List Binding} (h : Kept (as ++ ds) bs)
    (h' : Kept (bs ++ ds') cs) : Kept (as ++ (ds ++ ds')) cs := by
  rw [← List.append_assoc]
  exact (h.append (refl ds')).trans h'

theorem of_constant {as bs cs : List Binding} (h : Kept (as ++ bs) cs) (ha : ∀ a ∈ as, a.constant) :
    ∃ rest, cs = as ++ rest := by
  induction as generalizing cs with
  | nil => exact ⟨cs, rfl⟩
  | cons a as ih =>
    obtain ⟨constant, others⟩ := List.forall_mem_cons.mp ha
    cases h with
    | @cons _ b _ _ head tail =>
      obtain ⟨rest, rfl⟩ := ih tail others
      have same : b = a := by
        rcases a with ⟨name, value, flag⟩
        rcases b with ⟨name', value', flag'⟩
        rw [Binding.mk.injEq]
        exact ⟨head.name, head.value constant, head.constant⟩
      exact ⟨rest, by rw [same, List.cons_append]⟩

end Kept

def KeptAll (ss ss' : List Scope) : Prop :=
  List.Forall₂ (fun s s' => Kept s.bindings s'.bindings) ss ss'

namespace KeptAll

theorem refl (ss : List Scope) : KeptAll ss ss :=
  List.forall₂_same.mpr fun s _ => Kept.refl s.bindings

theorem trans {ss ss' ss'' : List Scope} (h : KeptAll ss ss') (h' : KeptAll ss' ss'') :
    KeptAll ss ss'' := by
  refine forall₂_trans ?_ h h'
  exact fun _ _ _ => Kept.trans

end KeptAll

namespace Scope

theorem set_kept {s : Scope} {name : String} {b : Binding} (h : s.find? name = some b)
    (hb : b.constant = false) (value : Value) : Kept s.bindings (s.set name value).bindings := by
  have found : b.name = name := by simpa using List.find?_some h
  have member : b ∈ s.bindings := List.mem_of_find?_eq_some h
  rw [bindings_set]
  refine List.forall₂_map_right_iff.mpr (List.forall₂_same.mpr fun a ha => ?_)
  by_cases hn : a.name = name
  · have mutable : a.constant = false := by
      rw [eq_of_name_eq ha member (hn.trans found.symm), hb]
    rw [if_pos hn]
    exact ⟨rfl, rfl, fun constant => absurd (mutable.symm.trans constant) Bool.false_ne_true⟩
  · rw [if_neg hn]
    exact .refl a

end Scope

namespace Event

def binding? : Event → Option Binding
  | declared name value constant => some ⟨name, value, constant⟩
  | _ => none

def declarations (log : List Event) : List Binding := log.filterMap binding?

theorem declarations_append (log log' : List Event) :
    declarations (log ++ log') = declarations log ++ declarations log' :=
  List.filterMap_append

end Event

namespace Environment

open Event

structure Grows (e : Environment) (log : List Event) (e' : Environment) : Prop where
  innermost : Kept (e.innermost.bindings ++ declarations log) e'.innermost.bindings
  enclosing : KeptAll e.enclosing e'.enclosing

theorem grows_of_quiet {e e' : Environment} {log : List Event} (hl : declarations log = [])
    (hi : Kept e.innermost.bindings e'.innermost.bindings)
    (he : KeptAll e.enclosing e'.enclosing) : e.Grows log e' := by
  refine ⟨?_, he⟩
  rw [hl, List.append_nil]
  exact hi

theorem Grows.refl (e : Environment) : e.Grows [] e := grows_of_quiet rfl (.refl _) (.refl _)

theorem Grows.trans {a b c : Environment} {log log' : List Event} (h : a.Grows log b)
    (h' : b.Grows log' c) : a.Grows (log ++ log') c where
  innermost := by
    rw [declarations_append]
    exact h.innermost.trans_append h'.innermost
  enclosing := h.enclosing.trans h'.enclosing

theorem setNearest_kept {scopes : List Scope} {name : String} {b : Binding}
    (h : scopes.findSome? (·.find? name) = some b) (hb : b.constant = false) (value : Value) :
    KeptAll scopes (setNearest name value scopes) := by
  induction scopes with
  | nil => exact .nil
  | cons s rest ih =>
    cases found : s.find? name with
    | some b' =>
      have binds : s.binds name := by
        rw [Scope.binds, found, Option.isSome_some]
      rw [List.findSome?_cons, found] at h
      obtain rfl : b' = b := Option.some.inj h
      rw [setNearest, if_pos binds]
      exact .cons (Scope.set_kept found hb value) (KeptAll.refl rest)
    | none =>
      have unbound : ¬ s.binds name := by
        rw [Scope.binds, found]
        exact Bool.false_ne_true
      rw [List.findSome?_cons, found] at h
      rw [setNearest, if_neg unbound]
      exact .cons (.refl s.bindings) (ih h)

theorem assign_kept {e e' : Environment} {name : String} {value : Value}
    (h : e.assign name value = .ok e') : KeptAll e.scopes e'.scopes := by
  rw [scopes_assign h]
  unfold assign at h
  split at h
  · cases h
  · rename_i b found
    split at h
    · cases h
    · rename_i mutable
      exact setNearest_kept found (by simpa using mutable) value

theorem assign_grows {e e' : Environment} {name : String} {value : Value}
    (h : e.assign name value = .ok e') : e.Grows [] e' := by
  have kept := assign_kept h
  cases kept with
  | cons innermost enclosing => exact grows_of_quiet rfl innermost enclosing

theorem declare_grows {e e' : Environment} {name : String} {value : Value} {constant : Bool}
    (h : e.declare name value constant = .ok e') : e.Grows [.declared name value constant] e' := by
  unfold declare at h
  split at h
  · cases h
  · cases h
    refine ⟨?_, .refl _⟩
    rw [Scope.bindings_add]
    exact .refl _

end Environment

namespace Evaluation

def Grows {α : Type} (m : Evaluation α) : Prop :=
  ∀ e : Environment, e.Grows (m e).log (m e).environment

theorem grows_declare (name : String) (value : Value) (constant : Bool) :
    Grows (declare name value constant) := by
  intro e
  cases h : e.declare name value constant with
  | ok e' =>
    simp only [declare, h]
    exact Environment.declare_grows h
  | error fault =>
    simp only [declare, h]
    exact .refl e

theorem grows_assign (name : String) (value : Value) : Grows (assign name value) := by
  intro e
  cases h : e.assign name value with
  | ok e' =>
    simp only [assign, h]
    exact Environment.assign_grows h
  | error fault =>
    simp only [assign, h]
    exact .refl e

theorem grows_closed : Closed Grows where
  pure _ e := .refl e
  fail _ e := .refl e
  lookup _ e := .refl e
  emit _ _ _ := Environment.grows_of_quiet rfl (.refl _) (.refl _)
  declare := grows_declare
  assign := grows_assign
  bind {_ _ m f} hm hf e := by
    cases h : (m e).result with
    | ok a =>
      rw [bind_of_ok h]
      exact (hm e).trans (hf a _)
    | error fault =>
      rw [bind_of_error h]
      exact hm e

end Evaluation

end LetLang
