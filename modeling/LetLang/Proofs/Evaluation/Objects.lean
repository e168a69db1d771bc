import LetLang.Proofs.Evaluation.Sequencing
import LetLang.Proofs.Value.Fields

namespace LetLang

inductive Enters (d : Dispatch) (e : Environment) :
    Node → String × Value → Environment → Prop where
  | bare {key : String} {v : Value} (h : e.lookup key = .ok v) :
      Enters d e (.property key none) (key, v) e
  | valued (key : String) {value : Node} {v : Value} (h : (evaluate d value e).result = .ok v) :
      Enters d e (.property key (some value)) (key, v) (evaluate d value e).environment

inductive EntersAll (d : Dispatch) :
    Environment → List Node → List (String × Value) → Environment → Prop where
  | nil (e : Environment) : EntersAll d e [] [] e
  | cons {e e' e'' : Environment} {n : Node} {ns : List Node} {entry : String × Value}
      {entries : List (String × Value)} (hn : Enters d e n entry e')
      (h : EntersAll d e' ns entries e'') : EntersAll d e (n :: ns) (entry :: entries) e''

open Evaluation

theorem evaluateEntry_enters {d : Dispatch} {n : Node} {e : Environment} {entry : String × Value}
    (h : (evaluateEntry d n e).result = .ok entry) :
    Enters d e n entry (evaluateEntry d n e).environment := by
  cases n with
  | property key value =>
    cases value with
    | none =>
      rw [evaluateEntry] at h ⊢
      obtain ⟨v, found, ⟨⟩, environment⟩ := ok_of_bind h
      rw [environment]
      exact .bare (lookup_eq_ok.mp found)
    | some value =>
      rw [evaluateEntry] at h ⊢
      obtain ⟨v, result, ⟨⟩, environment⟩ := ok_of_bind h
      rw [environment]
      exact .valued key result
  | declaration name value constant =>
    cases value with
    | none =>
      rw [evaluateEntry] at h
      cases h
    | some value =>
      rw [evaluateEntry] at h
      obtain ⟨_, _, ⟨⟩, _⟩ := ok_of_bind h
  | assignment target value =>
    rw [evaluateEntry] at h
    obtain ⟨_, _, ⟨⟩, _⟩ := ok_of_bind h
  | number x =>
    rw [evaluateEntry] at h
    cases h
  | program _ | binary _ _ _ | identifier _ | object _ =>
    rw [evaluateEntry_other d (by simp [Node.kind])] at h
    cases h

theorem evaluateFields_enters {d : Dispatch} {ns : List Node} {e : Environment}
    (before : List (String × Value)) {fields : Fields}
    (h : (evaluateFields d (.ofList before) ns e).result = .ok fields) :
    ∃ entries, EntersAll d e ns entries (evaluateFields d (.ofList before) ns e).environment ∧
      fields = .ofList (before ++ entries) := by
  induction ns generalizing before e with
  | nil =>
    rw [evaluateFields] at h ⊢
    cases h
    exact ⟨[], .nil e, by rw [List.append_nil]⟩
  | cons n ns ih =>
    rw [evaluateFields] at h ⊢
    obtain ⟨⟨key, v⟩, first, others, environment⟩ := ok_of_bind h
    rw [environment]
    dsimp only at others ⊢
    rw [← Fields.ofList_concat] at others ⊢
    obtain ⟨entries, enter, rfl⟩ := ih _ others
    exact ⟨(key, v) :: entries, .cons (evaluateEntry_enters first) enter,
      by rw [List.append_assoc, List.singleton_append]⟩

theorem evaluate_object_enters {d : Dispatch} {properties : List Node} {e : Environment} {v : Value}
    (h : (evaluate d (.object properties) e).result = .ok v) :
    ∃ entries, EntersAll d e properties entries (evaluate d (.object properties) e).environment ∧
      v = .object (Fields.ofList entries) := by
  rw [evaluate] at h ⊢
  obtain ⟨result, environment⟩ := Dispatch.ok_of_arm h
  obtain ⟨fields, entered, ⟨⟩, unchanged⟩ := ok_of_bind result
  obtain ⟨entries, enter, rfl⟩ := evaluateFields_enters [] entered
  rw [environment, unchanged, List.nil_append, Fields.ofList_ofList]
  exact ⟨entries, enter, rfl⟩

end LetLang
