import LetLang.Proofs.Diagnostic.Reports
import LetLang.Proofs.Evaluation.Faults
import LetLang.Proofs.Grammar.ViablePrefix
import LetLang.Proofs.Number.Guards
import LetLang.Proofs.Session.Reads

namespace LetLang
open Grammar LetLang.Parser Token

def Cause.Foreseen : Cause → Prop
  | .lexical _ => True
  | .parse _ found => found.isSome
  | .evaluation _ => True
  | .unboundName _ => True
  | .redeclaration _ => True
  | .constantAssignment _ => True
  | _ => False

theorem NameFault.foreseen (fault : NameFault) : fault.cause.Foreseen := by
  cases fault <;> trivial

theorem EvalFault.Foreseen.reports {fault : EvalFault} (h : fault.Foreseen) :
    ∃ cause, (Failure.ofEval fault).Reports cause ∧ cause.Foreseen := by
  cases h with
  | name fault => exact ⟨_, Failure.ofName_reports fault, fault.foreseen⟩
  | invalidTarget kind => exact ⟨_, Failure.ofEval_reports rfl, trivial⟩
  | operandTypes operator left right => exact ⟨_, Failure.ofEval_reports rfl, trivial⟩

theorem EvalFault.Foreseen.ne_unknownOperator {fault : EvalFault} (h : fault.Foreseen)
    (operator : String) : Failure.ofEval fault ≠ Failure.ofEval (.unknownOperator operator) := by
  intro same
  have unknown := Failure.ofEval_reports (f := .unknownOperator operator) rfl
  rw [← same] at unknown
  cases h with
  | name fault =>
    have causes := (Failure.ofName_reports fault).unique unknown
    cases fault <;> cases causes
  | invalidTarget kind =>
    have causes := (Failure.ofEval_reports (f := .invalidTarget kind) rfl).unique unknown
    cases causes
  | operandTypes op left right =>
    exact Failure.operandTypes_ne_unknownOperator op left right operator same

theorem scan_numbers {source : String} {tokens : List Token} (hs : scan source = .ok tokens) :
    ∀ t ∈ tokens, t.kind = .number → ∃ x, Number.ofText? t.text = some x := by
  obtain ⟨ts, q, ht, rfl⟩ := exists_scans hs
  intro t hm hk
  rcases List.mem_append.mp hm with hm | hm
  · exact (ht.lexed t hm).number hk
  · rw [List.mem_singleton.mp hm] at hk
    cases hk

theorem scan_terminated {source : String} {tokens : List Token} (hs : scan source = .ok tokens) :
    Terminated tokens := by
  obtain ⟨ts, q, _, rfl⟩ := exists_scans hs
  exact terminated_concat ts rfl

theorem commands_of_reads {source : String} {ns : List Node} (h : Reads source ns) :
    ∀ n ∈ ns, Command n := by
  obtain ⟨ts, q, hs, hn⟩ := reads_iff.mp h
  exact hn.commands hs.lexed

namespace Session

inductive Concludes : Except Failure Value → Prop where
  | value (v : Value) : Concludes (.ok v)
  | lexical (fault : LexicalFault) : Concludes (.error (.ofLexical fault))
  | parse {c : Complaint} (hc : Native c) (found : Token) :
      Concludes (.error (.ofParse (.unexpected c found)))
  | evaluation {fault : EvalFault} (h : fault.Foreseen) : Concludes (.error (.ofEval fault))

theorem run_concludes (s : Session) (source : String) : Concludes (s.run (some source)).result := by
  cases hs : scan source with
  | error fault =>
    have hr : (s.run (some source)).result = .error (.ofLexical fault) := by
      simp only [run_some, runSource, Session.parse, hs]
    exact hr ▸ .lexical fault
  | ok tokens =>
    cases hb : body tokens with
    | error fault =>
      obtain ⟨c, found, rfl, hc, _⟩ := program_error_found (scan_terminated hs) (scan_numbers hs)
        (program_eq_error_iff.mpr hb)
      have hr : (s.run (some source)).result = .error (.ofParse (.unexpected c found)) := by
        simp only [run_some, runSource, Session.parse, hs, hb]
      exact hr ▸ .parse hc found
    | ok ns =>
      have reads : Reads source ns := ⟨tokens, hs, hb⟩
      obtain ⟨hr, _⟩ := run_of_reads reads s
      have guarded := evaluateAll_guarded (commands_of_reads reads) .null s.environment
      rw [hr]
      cases ho : (evaluateAll .standard .null ns s.environment).result with
      | ok v => exact .value v
      | error fault => exact .evaluation (guarded fault ho)

theorem Concludes.reports {failure : Failure} (h : Concludes (.error failure)) :
    ∃ cause, failure.Reports cause ∧ cause.Foreseen := by
  cases h with
  | lexical fault => exact ⟨_, Failure.ofLexical_reports fault, trivial⟩
  | parse hc found => exact ⟨_, Failure.ofParse_reports hc found, rfl⟩
  | evaluation h => exact h.reports

theorem Concludes.not_unsupported {r : Except Failure Value} (h : Concludes r) (label : String) :
    r ≠ .error (.ofEval (.unsupported label)) := by
  rintro rfl
  obtain ⟨cause, reports, foreseen⟩ := h.reports
  rw [reports.unique (Failure.ofEval_reports rfl)] at foreseen
  exact foreseen

theorem Concludes.not_unknownOperator {r : Except Failure Value} (h : Concludes r)
    (operator : String) : r ≠ .error (.ofEval (.unknownOperator operator)) := by
  intro hr
  have unknown := Failure.ofEval_reports (f := .unknownOperator operator) rfl
  cases h with
  | value v => cases hr
  | lexical fault =>
    rw [← Except.error.inj hr] at unknown
    cases (Failure.ofLexical_reports fault).unique unknown
  | parse hc found =>
    rw [← Except.error.inj hr] at unknown
    cases (Failure.ofParse_reports hc found).unique unknown
  | evaluation h => exact h.ne_unknownOperator operator (Except.error.inj hr)

theorem Concludes.cases {r : Except Failure Value} (h : Concludes r) :
    (∃ v, r = .ok v) ∨ ∃ d, r = .error (.diagnostic d) ∧ d.cause.Foreseen := by
  cases r with
  | ok v => exact .inl ⟨v, rfl⟩
  | error failure =>
    obtain ⟨cause, ⟨d, rfl, rfl⟩, foreseen⟩ := h.reports
    exact .inr ⟨d, rfl, foreseen⟩

end Session

theorem run_foreseen {quotient remainder : Number → Number → Option Number}
    (h : Number.Primitives quotient remainder) (s : Session) (source : String) :
    ((∃ v, (s.run (some source)).result = .ok v) ∨
      ∃ d, (s.run (some source)).result = .error (.diagnostic d) ∧ d.cause.Foreseen) ∧
    (∀ label, (s.run (some source)).result ≠ .error (.ofEval (.unsupported label))) ∧
    (∀ operator, (s.run (some source)).result ≠ .error (.ofEval (.unknownOperator operator))) ∧
    (∀ tokens, scan source = .ok tokens →
      (∀ t ∈ tokens, t.kind = .number → ∃ x, Number.ofText? t.text = some x) ∧
      cursor tokens < tokens.length ∧
      ∀ fault, program tokens = .error fault →
        ∃ c found, fault = .unexpected c found ∧ tokens[cursor tokens]? = some found) ∧
    (∀ fault, ∃ d, Failure.ofLexical fault = .diagnostic d) ∧
    (∀ c found, Native c → ∃ d, Failure.ofParse (.unexpected c found) = .diagnostic d) ∧
    (∀ fault : EvalFault, (∀ kind field, fault ≠ .missingField kind field) →
      ∃ d, Failure.ofEval fault = .diagnostic d) ∧
    (∀ operator, Operator.guarded? quotient remainder operator =
      (Operator.operation? operator).map fun f x y => some (f x y)) := by
  have concludes := s.run_concludes source
  refine ⟨concludes.cases, concludes.not_unsupported, concludes.not_unknownOperator,
    fun tokens hs => ⟨scan_numbers hs, cursor_lt (scan_terminated hs), fun fault hf => ?_⟩,
    fun fault => (Failure.ofLexical_reports fault).diagnostic,
    fun c found hc => (Failure.ofParse_reports hc found).diagnostic, fun fault hf => ?_,
    Operator.guarded?_eq h⟩
  · obtain ⟨c, found, rfl, _, hc⟩ := program_error_found (scan_terminated hs) (scan_numbers hs) hf
    exact ⟨c, found, rfl, hc⟩
  · obtain ⟨cause, hc⟩ := EvalFault.exists_cause hf
    exact (Failure.ofEval_reports hc).diagnostic

def freshSession : Session := ⟨.global, [], Session.typedPath, none, ⟨false, .plain, none⟩⟩

theorem freshSession_run_foreseen :
    Number.Primitives Number.checkedDiv Number.checkedMod ∧
    ∃ d, (freshSession.run (some "$")).result = .error (.diagnostic d) ∧ d.cause.Foreseen := by
  refine ⟨Number.primitives_checked, ?_⟩
  have unknown : scan "$" = .error ⟨'$', Position.start⟩ :=
    scanFrom_none (by decide) (by decide) Position.start
  have result : (freshSession.run (some "$")).result = .error (.ofLexical ⟨'$', Position.start⟩) := by
    simp only [Session.run_some, Session.runSource, Session.parse, unknown]
  rcases (run_foreseen Number.primitives_checked freshSession "$").1 with ⟨v, hv⟩ | foreseen
  · rw [result] at hv
    cases hv
  · exact foreseen

end LetLang
