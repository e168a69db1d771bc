import LetLang.Proofs.Environment.Visibility
import LetLang.Proofs.Evaluation.Locality

namespace LetLang

open Evaluation

theorem shows_simulation (on : String → Prop) :
    Simulation (fun u => ∀ name, u.declared? = some name → on name) (Environment.Shows on) where
  lookup h _ := h.lookup _
  declare value constant h hu := h.declare (hu _ rfl) value constant
  assign value h _ := h.assign _ value

theorem evaluate_shows (d : Dispatch) (n : Node) :
    Simulates (Environment.Shows (· ∈ n.declared)) (evaluate d n) := by
  apply (simulates_closed (shows_simulation _)).evaluate
  intro u hu name declares
  exact List.mem_filterMap.mpr ⟨u, hu, declares⟩

theorem evaluate_flat (d : Dispatch) (n : Node) {e : Environment}
    (h : ∀ name ∈ n.declared, (∃ s ∈ e.enclosing, name ∈ s.names) → name ∈ e.innermost.names) :
    (∀ name, e.flat.find? name = e.find? name) ∧ e.flat.enclosing = [] ∧
    (evaluate d n e.flat).result = (evaluate d n e).result ∧
    (∀ name, (evaluate d n e.flat).environment.find? name =
      (evaluate d n e).environment.find? name) ∧
    (evaluate d n e.flat).environment.enclosing = [] := by
  obtain ⟨result, shows_after⟩ := evaluate_shows d n e e.flat (Environment.shows_flat h)
  refine ⟨e.find?_flat, rfl, result.symm, fun name => (shows_after.find? name).symm, ?_⟩
  exact List.forall₂_nil_left_iff.mp (grows_closed.evaluate d n e.flat).enclosing

def shadowed : Environment where
  innermost := .ofBindings [⟨"x", .null, false⟩] (by decide)
  enclosing := [.ofBindings [⟨"x", .null, true⟩, ⟨"y", .null, false⟩] (by decide),
    .ofBindings [⟨"y", .null, true⟩] (by decide), .global]

def reaching : Node :=
  .program [.assignment (.identifier "x") (.identifier "true"),
    .assignment (.identifier "y") (.identifier "x"), .declaration "w" (some (.identifier "y")) true,
    .declaration "x" none false]

theorem reaching_flat :
    reaching.declared = ["w", "x"] ∧
    (∀ name ∈ reaching.declared, (∃ s ∈ shadowed.enclosing, name ∈ s.names) →
      name ∈ shadowed.innermost.names) ∧
    (evaluate .standard reaching shadowed.flat).result = .error (.name (.redeclared "x")) ∧
    (evaluate .standard reaching shadowed.flat).environment.find? "y" =
      some ⟨"y", .boolean true, false⟩ := by
  have declared : reaching.declared = ["w", "x"] := by decide
  have near : ∀ name ∈ reaching.declared, (∃ s ∈ shadowed.enclosing, name ∈ s.names) →
      name ∈ shadowed.innermost.names := by
    rw [declared]
    decide
  have refused : (evaluate .standard reaching shadowed).result =
      .error (.name (.redeclared "x")) := by
    rfl
  have reached : (evaluate .standard reaching shadowed).environment.find? "y" =
      some ⟨"y", .boolean true, false⟩ := by
    rfl
  obtain ⟨_, _, result, shown, _⟩ := evaluate_flat .standard reaching near
  exact ⟨declared, near, result.trans refused, (shown "y").trans reached⟩

end LetLang
