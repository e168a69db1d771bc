import LetLang.Proofs.Evaluation.Interruptions
import LetLang.Proofs.Session.Likeness
import LetLang.Proofs.Session.Locations

namespace LetLang

inductive Cause.Textual : Cause → Prop where
  | lexical (char : String) : Textual (.lexical char)
  | parse (expected : Option TokenKind) (found : Option Token) : Textual (.parse expected found)

theorem Cause.About.textual {cause : Cause} {about : Option String} (h : cause.About about) :
    cause.Textual := by
  cases h with
  | char char => exact .lexical char
  | token expected t _ => exact .parse expected (some t)
  | finish expected t _ => exact .parse expected (some t)

theorem EvalFault.cause?_not_textual {fault : EvalFault} {cause : Cause}
    (h : fault.cause? = some cause) : ¬ cause.Textual := by
  rintro (_ | _)
  all_goals
    cases fault with
    | name fault => cases fault <;> cases h
    | _ => cases h

theorem EvalFault.Foreseen.diagnostic {fault : EvalFault} (h : fault.Foreseen) :
    ∃ d, Failure.ofEval fault = .diagnostic d ∧ ¬ d.cause.Textual := by
  obtain ⟨cause, hc⟩ : ∃ cause, fault.cause? = some cause := by
    apply EvalFault.exists_cause
    rintro kind field rfl
    cases h
  obtain ⟨d, hd, rfl⟩ := Failure.ofEval_reports hc
  exact ⟨d, hd, EvalFault.cause?_not_textual hc⟩

namespace Session

structure Interrupted (s : Session) (text : String) (failure : Failure) (after : Environment)
    (done : List Node) (next : Node) (before : Environment) : Prop where
  reads : ∃ rest, Reads text (done ++ next :: rest)
  succeeds : ∃ v, (evaluate .standard (.program done) s.environment).result = .ok v
  leaves : (evaluate .standard (.program done) s.environment).environment = before
  fails : ∃ fault, (evaluate .standard next before).result = .error fault ∧
    failure = .ofEval fault
  reassigned : before.Reassigned next.nested after

theorem Interrupted.unchanged {s : Session} {text : String} {failure : Failure}
    {after before : Environment} {done : List Node} {next : Node}
    (h : s.Interrupted text failure after done next before) (hn : next.nested = []) :
    after = before := by
  have reassigned := h.reassigned
  rw [hn] at reassigned
  exact reassigned.eq.symm

theorem run_eq_run_some {s : Session} {source : Option String} {text : String}
    (h : (source <|> s.source) = some text) : s.run source = s.run (some text) := by
  rw [run_some]
  unfold run
  rw [h]

theorem run_unread {s : Session} {text : String} {failure : Failure}
    (h : (s.parse text).result = .error failure) :
    (s.run (some text)).result = .error failure ∧
      (s.run (some text)).session.environment = s.environment := by
  simp only [run_some, runSource, h, parse_session, and_self]

theorem reads_of_parse {s : Session} {text : String} {body : List Node}
    (h : (s.parse text).result = .ok body) : Reads text body := by
  unfold parse at h
  split at h
  · cases h
  · rename_i tokens scanned
    split at h
    · cases h
    · rename_i body' parsed
      obtain rfl := Except.ok.inj h
      exact ⟨tokens, scanned, parsed⟩

theorem run_interrupted {s : Session} {text : String} {body : List Node} {failure : Failure}
    (hr : Reads text body) (h : (s.run (some text)).result = .error failure) :
    ∃ d done next before, failure = .diagnostic d ∧ ¬ d.cause.Textual ∧
      s.Interrupted text failure (s.run (some text)).session.environment done next before := by
  obtain ⟨result, environment⟩ := run_of_reads hr s
  rw [h] at result
  cases ho : (evaluateAll .standard .null body s.environment).result with
  | ok v =>
    rw [ho] at result
    cases result
  | error fault =>
    rw [ho] at result
    obtain rfl : failure = .ofEval fault := Except.error.inj result
    have commands := commands_of_reads hr
    obtain ⟨d, hd, cause⟩ := (evaluateAll_guarded commands .null _ fault ho).diagnostic
    obtain ⟨done, next, rest, v, rfl, succeeded, failed, left⟩ := evaluateAll_interrupted _ ho
    have command : Command next := commands next (by simp)
    have evaluated : Kind.program ∈ Dispatch.standard.evaluated := by decide
    have whole := Dispatch.arm_outcome evaluated (evaluateAll .standard .null done) s.environment
    rw [← evaluate_program] at whole
    refine ⟨d, done, next, _, hd, cause, ⟨rest, hr⟩, ⟨v, whole.1.trans succeeded⟩, whole.2,
      ⟨fault, failed, rfl⟩, ?_⟩
    rw [environment, ← left]
    exact command.halts _ fault failed

end Session

theorem run_failed {s : Session} {source : Option String} {text : String} {failure : Failure}
    (ht : (source <|> s.source) = some text) (h : (s.run source).result = .error failure) :
    (s.run source).session.results = s.results ∧
    ∃ d, failure = .diagnostic d ∧
      (d.cause.Textual → (s.run source).session.environment = s.environment) ∧
      (¬ d.cause.Textual → ∃ done next before,
        s.Interrupted text failure (s.run source).session.environment done next before ∧
        (next.nested = [] → (s.run source).session.environment = before)) := by
  rw [Session.run_eq_run_some ht] at h ⊢
  refine ⟨?_, ?_⟩
  · rw [Session.run_results, h]
    exact List.append_nil _
  cases hp : (s.parse text).result with
  | error unread =>
    obtain ⟨result, environment⟩ := Session.run_unread hp
    obtain rfl : unread = failure := Except.error.inj (result.symm.trans h)
    obtain ⟨d, _, _, hd, about, _⟩ := Session.parse_error_points hp
    exact ⟨d, hd, fun _ => environment, fun other => absurd about.textual other⟩
  | ok body =>
    obtain ⟨d, done, next, before, hd, cause, interrupted⟩ :=
      Session.run_interrupted (Session.reads_of_parse hp) h
    exact ⟨d, hd, fun textual => absurd textual cause,
      fun _ => ⟨done, next, before, interrupted, interrupted.unchanged⟩⟩

def stopping : String := "let x; { a: x = true, y }"

def stoppingBody : List Node := [.declaration "x" none false, .object
  [.property "a" (some (.assignment (.identifier "x") (.identifier "true"))), .property "y" none]]

theorem reads_stopping : Reads stopping stoppingBody := by
  refine ⟨?_, ?scanned, ?parsed⟩
  case scanned =>
    cbv
    rfl
  case parsed => cbv

theorem stoppingBody_fails :
    (evaluateAll .standard .null stoppingBody .global).result = .error (.name (.unbound "y")) ∧
    (evaluateAll .standard .null stoppingBody .global).environment.lookup "x" =
      .ok (.boolean true) :=
  ⟨rfl, rfl⟩

theorem stopping_failed :
    (freshSession.run (some stopping)).result = .error (.ofEval (.name (.unbound "y"))) ∧
    (freshSession.run (some stopping)).session.results = [] ∧
    (freshSession.run (some stopping)).session.environment.lookup "x" = .ok (.boolean true) ∧
    (∃ done next before, freshSession.Interrupted stopping (.ofEval (.name (.unbound "y")))
      (freshSession.run (some stopping)).session.environment done next before) ∧
    (freshSession.run (some "$")).session.environment = freshSession.environment := by
  obtain ⟨result, environment⟩ := Session.run_of_reads reads_stopping freshSession
  obtain ⟨unbound, assigned⟩ := stoppingBody_fails
  have failed : (freshSession.run (some stopping)).result =
      .error (.ofEval (.name (.unbound "y"))) := by
    rw [result, freshSession, unbound]
    rfl
  have given : (some stopping <|> freshSession.source) = some stopping := rfl
  obtain ⟨results, d, hd, _, interrupted⟩ := run_failed given failed
  have other : ¬ d.cause.Textual := by
    obtain ⟨d', hd', cause⟩ := (EvalFault.Foreseen.name (.unbound "y")).diagnostic
    obtain rfl : d = d' := Failure.diagnostic.inj (hd.symm.trans hd')
    exact cause
  obtain ⟨done, next, before, stopped, _⟩ := interrupted other
  have unknown : Token.scan "$" = .error ⟨'$', Position.start⟩ :=
    Token.scanFrom_none (by decide) (by decide) Position.start
  have refused : (freshSession.run (some "$")).result = .error (.ofLexical ⟨'$', Position.start⟩) :=
    (Session.run_unread (Session.parse_of_scan_error unknown freshSession)).1
  have given' : (some "$" <|> freshSession.source) = some "$" := rfl
  obtain ⟨_, r, hr, unchanged, _⟩ := run_failed given' refused
  have textual : r.cause.Textual := by
    obtain ⟨r', hr', cause⟩ := Failure.ofLexical_reports ⟨'$', Position.start⟩
    obtain rfl : r = r' := Failure.diagnostic.inj (hr.symm.trans hr')
    rw [cause]
    exact .lexical _
  exact ⟨failed, results, environment ▸ assigned, ⟨done, next, before, stopped⟩, unchanged textual⟩

end LetLang
