import LetLang.Proofs.Session.Safety

namespace LetLang

namespace Session

structure Like (s s' : Session) : Prop where
  environment : s.environment = s'.environment
  path : s.path = s'.path
  fatal : s.reporter.fatal = s'.reporter.fatal
  painter : s.reporter.painter = s'.reporter.painter

namespace Like

variable {s s' s'' : Session}

theorem refl (s : Session) : s.Like s := ⟨rfl, rfl, rfl, rfl⟩

theorem symm (h : s.Like s') : s'.Like s :=
  ⟨h.environment.symm, h.path.symm, h.fatal.symm, h.painter.symm⟩

theorem trans (h : s.Like s') (h' : s'.Like s'') : s.Like s'' where
  environment := h.environment.trans h'.environment
  path := h.path.trans h'.path
  fatal := h.fatal.trans h'.fatal
  painter := h.painter.trans h'.painter

theorem register (h : s.Like s') (source : String) :
    s.reporter.register s.path source = s'.reporter.register s'.path source := by
  rw [Reporter.register, Reporter.register, h.path, h.fatal, h.painter]

end Like

end Session

structure Run.Like {α : Type} (r r' : Run α) : Prop where
  result : r.result = r'.result
  log : r.log = r'.log
  session : r.session.Like r'.session
  reporter : r.session.reporter = r'.session.reporter

namespace Session

variable {s s' : Session}

theorem parse_like (s : Session) (source : String) : (s.parse source).session.Like s := by
  rw [parse_session]
  exact ⟨rfl, rfl, rfl, rfl⟩

theorem parse_of_scan_eq {source source' : String} (h : Token.scan source = Token.scan source')
    (s s' : Session) : (s.parse source).result = (s'.parse source').result ∧
      (s.parse source).log = (s'.parse source').log := by
  unfold parse
  rw [h]
  split
  · exact ⟨rfl, rfl⟩
  · split
    · exact ⟨rfl, rfl⟩
    · exact ⟨rfl, rfl⟩

theorem Like.parse (h : s.Like s') (source : String) :
    (s.parse source).Like (s'.parse source) where
  result := (parse_of_scan_eq rfl s s').1
  log := (parse_of_scan_eq rfl s s').2
  session := (s.parse_like source).trans (h.trans (s'.parse_like source).symm)
  reporter := by
    rw [parse_session, parse_session]
    exact h.register source

theorem Like.execute (h : s.Like s') (hr : s.reporter = s'.reporter) (body : List Node) :
    (s.execute body).Like (s'.execute body) := by
  cases ho : (evaluate .standard (.program body) s'.environment).result with
  | ok v =>
    simp only [Session.execute, h.environment, h.path, ho]
    exact ⟨rfl, rfl, ⟨rfl, rfl, h.fatal, h.painter⟩, hr⟩
  | error fault =>
    simp only [Session.execute, h.environment, h.path, ho]
    exact ⟨rfl, rfl, ⟨rfl, rfl, h.fatal, h.painter⟩, hr⟩

theorem Like.run (h : s.Like s') (source : String) :
    (s.run (some source)).Like (s'.run (some source)) := by
  have parsed := h.parse source
  have result := parsed.result
  rw [run_some, run_some]
  cases hp : (s'.parse source).result with
  | error failure =>
    rw [hp] at result
    simp only [runSource, result, hp]
    exact ⟨rfl, parsed.log, parsed.session, parsed.reporter⟩
  | ok body =>
    rw [hp] at result
    have executed := parsed.session.execute parsed.reporter body
    simp only [runSource, result, hp, parsed.log]
    exact ⟨executed.result, congrArg ((s'.parse source).log ++ ·) executed.log, executed.session,
      executed.reporter⟩

def withEnvironment (s : Session) (e : Environment) : Session := { s with environment := e }

theorem execute_session (s : Session) (body : List Node) : (s.execute body).session =
    { s with
      environment := (s.execute body).session.environment
      results := s.results ++ (s.execute body).result.toOption.toList } := by
  cases ho : (evaluate .standard (.program body) s.environment).result with
  | ok v => simp only [execute, ho, Except.toOption, Option.toList_some]
  | error fault => simp only [execute, ho, Except.toOption, Option.toList_none, List.append_nil]

theorem run_session (s : Session) (source : String) : (s.run (some source)).session =
    { s with
      environment := (s.run (some source)).session.environment
      results := s.results ++ (s.run (some source)).result.toOption.toList
      reporter := s.reporter.register s.path source } := by
  have parsed := s.parse_session source
  rw [run_some]
  cases hp : (s.parse source).result with
  | error failure =>
    simp only [runSource, hp, parsed, Except.toOption, Option.toList_none, List.append_nil]
  | ok body =>
    simp only [runSource, hp, parsed]
    exact execute_session _ body

theorem run_results (s : Session) (source : String) :
    (s.run (some source)).session.results =
      s.results ++ (s.run (some source)).result.toOption.toList := by
  rw [run_session]

theorem run_like (s : Session) (source : String) :
    (s.run (some source)).session.Like
      (s.withEnvironment (s.run (some source)).session.environment) := by
  rw [run_session]
  exact ⟨rfl, rfl, rfl, rfl⟩

end Session

end LetLang
