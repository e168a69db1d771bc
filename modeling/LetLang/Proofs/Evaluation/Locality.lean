import LetLang.Proofs.Environment.Agreement
import LetLang.Proofs.Evaluation.Simulation

namespace LetLang

namespace Evaluation

variable {α : Type} {on : String → Prop}

def Respects (on : String → Prop) {α : Type} (m : Evaluation α) : Prop :=
  ∀ e e' : Environment, e.Agree on e' →
    (m e).result = (m e').result ∧ (m e).environment.Agree on (m e').environment

def Spares (on : String → Prop) {α : Type} (m : Evaluation α) : Prop :=
  ∀ e : Environment, e.Agree on (m e).environment

theorem agree_simulation (on : String → Prop) :
    Simulation (fun u => on u.name) (Environment.Agree on) where
  lookup h hn := h.lookup hn
  declare value constant h hn := h.declare hn value constant
  assign value h hn := h.assign hn value

theorem respects_closed (on : String → Prop) : ClosedOn (fun u => on u.name) (Respects on) :=
  simulates_closed (agree_simulation on)

theorem agree_preservation (on : String → Prop) :
    Preservation (fun u => ∀ name, u.written? = some name → ¬ on name) (Environment.Agree on) where
  refl := .refl
  trans := .trans
  declare hu h := .of_declare h (hu _ rfl)
  assign hu h := .of_assign h (hu _ rfl)

theorem spares_closed (on : String → Prop) :
    ClosedOn (fun u => ∀ name, u.written? = some name → ¬ on name) (Spares on) :=
  preserves_closed (agree_preservation on)

end Evaluation

open Evaluation

theorem evaluate_respects (d : Dispatch) {n : Node} {on : String → Prop}
    (h : ∀ name ∈ n.mentioned, on name) : Respects on (evaluate d n) :=
  (respects_closed on).evaluate d n fun _ hu => h _ (Node.mem_mentioned hu)

theorem evaluate_spares (d : Dispatch) {n : Node} {on : String → Prop}
    (h : ∀ name ∈ n.written, ¬ on name) : Spares on (evaluate d n) :=
  (spares_closed on).evaluate d n fun _ hu name hw => h name (List.mem_filterMap.mpr ⟨_, hu, hw⟩)

theorem evaluate_local (d : Dispatch) (n : Node) {e e' : Environment}
    (h : e.Agree (· ∈ n.mentioned) e') :
    (evaluate d n e).result = (evaluate d n e').result ∧
    (evaluate d n e).environment.Agree (· ∈ n.mentioned) (evaluate d n e').environment ∧
    e.Agree (· ∉ n.written) (evaluate d n e).environment ∧
    e'.Agree (· ∉ n.written) (evaluate d n e').environment := by
  obtain ⟨result, agree⟩ := evaluate_respects d (fun _ hn => hn) e e' h
  have spares : Spares (· ∉ n.written) (evaluate d n) :=
    evaluate_spares d fun name hw unwritten => unwritten hw
  exact ⟨result, agree, spares e, spares e'⟩

def straying : Node :=
  .program [.assignment (.identifier "y") (.object [.property "x" none, .property "k" (some
    (.identifier "x"))]), .declaration "z" (some (.identifier "y")) true, .identifier "u"]

def nearby : Environment where
  innermost := .ofBindings [⟨"x", .null, true⟩, ⟨"k", .null, false⟩] (by decide)
  enclosing := [.ofBindings [⟨"y", .null, false⟩] (by decide)]

def faraway : Environment where
  innermost := .ofBindings [⟨"k", .boolean true, true⟩, ⟨"x", .null, true⟩] (by decide)
  enclosing := [.ofBindings [⟨"v", .null, false⟩, ⟨"y", .null, false⟩] (by decide)]

theorem straying_local :
    straying.mentioned = ["x", "x", "y", "y", "z", "u"] ∧ straying.written = ["y", "z"] ∧
    nearby.Agree (· ∈ straying.mentioned) faraway ∧
    (evaluate .standard straying faraway).result = .error (.name (.unbound "u")) ∧
    faraway.Agree (· ∉ straying.written) (evaluate .standard straying faraway).environment := by
  have mentioned : straying.mentioned = ["x", "x", "y", "y", "z", "u"] := by decide
  have agree : nearby.Agree (· ∈ straying.mentioned) faraway := by
    rw [mentioned]
    refine .cons ?_ (.cons ?_ .nil)
    · simp [Scope.Agree, Scope.find?, nearby, faraway]
    · simp [Scope.Agree, Scope.find?]
  obtain ⟨result, _, _, spared⟩ := evaluate_local .standard straying agree
  have unbound : (evaluate .standard straying nearby).result = .error (.name (.unbound "u")) := by
    rfl
  exact ⟨mentioned, by decide, agree, result ▸ unbound, spared⟩

end LetLang
