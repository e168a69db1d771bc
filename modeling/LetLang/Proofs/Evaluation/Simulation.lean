import LetLang.Proofs.Evaluation.Closure

namespace LetLang

structure Simulation (U : Use → Prop) (R : Environment → Environment → Prop) : Prop where
  lookup : ∀ {e e' : Environment} {name : String}, R e e' → U (.read name) →
    e.lookup name = e'.lookup name
  declare : ∀ {e e' : Environment} {name : String} (value : Value) (constant : Bool), R e e' →
    U (.declare name) →
    (∃ fault, e.declare name value constant = .error fault ∧
      e'.declare name value constant = .error fault) ∨
    ∃ a a', e.declare name value constant = .ok a ∧ e'.declare name value constant = .ok a' ∧ R a a'
  assign : ∀ {e e' : Environment} {name : String} (value : Value), R e e' → U (.assign name) →
    (∃ fault, e.assign name value = .error fault ∧ e'.assign name value = .error fault) ∨
    ∃ a a', e.assign name value = .ok a ∧ e'.assign name value = .ok a' ∧ R a a'

structure Preservation (U : Use → Prop) (R : Environment → Environment → Prop) : Prop where
  refl : ∀ e : Environment, R e e
  trans : ∀ {a b c : Environment}, R a b → R b c → R a c
  declare : ∀ {e e' : Environment} {name : String} {value : Value} {constant : Bool},
    U (.declare name) → e.declare name value constant = .ok e' → R e e'
  assign : ∀ {e e' : Environment} {name : String} {value : Value},
    U (.assign name) → e.assign name value = .ok e' → R e e'

namespace Evaluation

variable {U : Use → Prop} {R : Environment → Environment → Prop}

def Simulates (R : Environment → Environment → Prop) {α : Type} (m : Evaluation α) : Prop :=
  ∀ e e' : Environment, R e e' →
    (m e).result = (m e').result ∧ R (m e).environment (m e').environment

theorem Simulates.bind {α β : Type} {m : Evaluation α} {f : α → Evaluation β}
    (hm : Simulates R m) (hf : ∀ a, Simulates R (f a)) : Simulates R (m >>= f) := by
  intro e e' h
  obtain ⟨result, related⟩ := hm e e' h
  cases hr : (m e).result with
  | ok a =>
    rw [bind_of_ok hr, bind_of_ok (result ▸ hr)]
    exact hf a _ _ related
  | error fault =>
    rw [bind_of_error hr, bind_of_error (result ▸ hr)]
    exact ⟨rfl, related⟩

theorem simulates_closed (h : Simulation U R) : ClosedOn U (Simulates R) where
  pure _ _ _ related := ⟨rfl, related⟩
  fail _ _ _ related := ⟨rfl, related⟩
  emit _ _ _ _ related := ⟨rfl, related⟩
  bind := Simulates.bind
  lookup name used := by
    intro e e' related
    have same := h.lookup related used
    exact ⟨by simp only [lookup, same], related⟩
  declare name value constant used := by
    intro e e' related
    rcases h.declare value constant related used with ⟨fault, refused, refused'⟩ |
      ⟨a, a', declared, declared', related'⟩
    · simp only [declare, refused, refused', true_and]
      exact related
    · simp only [declare, declared, declared', true_and]
      exact related'
  assign name value used := by
    intro e e' related
    rcases h.assign value related used with ⟨fault, refused, refused'⟩ |
      ⟨a, a', assigned, assigned', related'⟩
    · simp only [assign, refused, refused', true_and]
      exact related
    · simp only [assign, assigned, assigned', true_and]
      exact related'

def Preserves (R : Environment → Environment → Prop) {α : Type} (m : Evaluation α) : Prop :=
  ∀ e : Environment, R e (m e).environment

theorem preserves_closed (h : Preservation U R) : ClosedOn U (Preserves R) where
  pure _ e := h.refl e
  fail _ e := h.refl e
  emit _ _ e := h.refl e
  lookup _ _ e := h.refl e
  declare name value constant used := by
    intro e
    cases hd : e.declare name value constant with
    | ok a =>
      simp only [declare, hd]
      exact h.declare used hd
    | error fault =>
      simp only [declare, hd]
      exact h.refl e
  assign name value used := by
    intro e
    cases ha : e.assign name value with
    | ok a =>
      simp only [assign, ha]
      exact h.assign used ha
    | error fault =>
      simp only [assign, ha]
      exact h.refl e
  bind {_ _ m f} hm hf := by
    intro e
    cases hr : (m e).result with
    | ok a =>
      rw [bind_of_ok hr]
      exact h.trans (hm e) (hf a _)
    | error fault =>
      rw [bind_of_error hr]
      exact hm e

end Evaluation

end LetLang
