import LetLang.Proofs.Shell.Answers

namespace LetLang

namespace Session

def runAll (s : Session) (sources : List String) : Session :=
  sources.foldl (fun s source => (s.run (some source)).session) s

theorem runAll_like (s : Session) (sources : List String) :
    (s.runAll sources).Like (s.withEnvironment (s.runAll sources).environment) := by
  induction sources generalizing s with
  | nil => exact .refl s
  | cons source sources ih =>
    have first := s.run_like source
    have others := ih (s.run (some source)).session
    exact ⟨rfl, others.path.trans first.path, others.fatal.trans first.fatal,
      others.painter.trans first.painter⟩

structure Ready (s : Session) : Prop where
  results : s.results = []
  fatal : s.reporter.fatal = false

theorem start_commandLine {reporter reporter' : Reporter} {path : String}
    {read : String → Stored} {s : Session}
    (h : Session.start reporter path true read = (reporter', .ok s)) : s.Ready := by
  obtain ⟨_, result⟩ := Prod.mk.injEq .. ▸ h
  split at result
  · simp only [if_true] at result
    cases result
    exact ⟨rfl, rfl⟩
  · cases loaded : load path (read path) with
    | ok text =>
      rw [loaded] at result
      cases result
      exact ⟨rfl, rfl⟩
    | error failure =>
      rw [loaded] at result
      cases result

end Session

namespace Shell

def sources (lines : List String) : List String := (lines.map strip).filter (Runs ·)

theorem sources_cons_of_runs {line : String} (h : Runs (strip line)) (lines : List String) :
    sources (line :: lines) = strip line :: sources lines := by
  simp [sources, h]

theorem sources_cons_of_not_runs {line : String} (h : ¬ Runs (strip line)) (lines : List String) :
    sources (line :: lines) = sources lines := by
  simp [sources, h]

def after (s : Session) (lines : List String) : Session :=
  lines.foldl (fun s line => (respond s line).session) s

def replies (s : Session) : List String → List Reply
  | [] => []
  | line :: rest =>
    let reply := respond s line
    if reply.stop then [reply] else reply :: replies reply.session rest

theorem respond_ready {s : Session} (hs : s.Ready) (line : String) :
    (respond s line).session.Ready := by
  by_cases he : Ends line
  · rw [(respond_of_ends he s).2]
    exact hs
  by_cases hr : Runs (strip line)
  · obtain ⟨session, results⟩ := runLine_session hs.results (strip line)
    rw [respond_of_runs he hr]
    exact ⟨results, session.fatal.trans ((s.run_like _).fatal.trans hs.fatal)⟩
  · obtain ⟨session, results⟩ := respond_of_idle hr s
    exact ⟨results.trans hs.results, session.fatal.trans hs.fatal⟩

theorem respond_step {s t : Session} (h : s.Like t) (hs : s.Ready) {line : String}
    (hl : ¬ Ends line) (rest : List String) :
    ∃ t', (respond s line).session.Like t' ∧
      t.runAll (sources (line :: rest)) = t'.runAll (sources rest) := by
  -- a line that is run takes the fold one source on, any other line leaves it where it is
  by_cases hr : Runs (strip line)
  · obtain ⟨session, _⟩ := runLine_session hs.results (strip line)
    rw [respond_of_runs hl hr, sources_cons_of_runs hr]
    exact ⟨_, session.trans (h.run (strip line)).session, rfl⟩
  · obtain ⟨session, _⟩ := respond_of_idle hr s
    rw [sources_cons_of_not_runs hr]
    exact ⟨t, session.trans h, rfl⟩

theorem after_like {s t : Session} (h : s.Like t) (hs : s.Ready) {lines : List String}
    (hl : ∀ line ∈ lines, ¬ Ends line) :
    (after s lines).Ready ∧ (after s lines).Like (t.runAll (sources lines)) := by
  induction lines generalizing s t with
  | nil => exact ⟨hs, h⟩
  | cons line lines ih =>
    obtain ⟨here, others⟩ := List.forall_mem_cons.mp hl
    obtain ⟨t', like, run⟩ := respond_step h hs here lines
    rw [run]
    exact ih like (respond_ready hs line) others

theorem converse_of_ends {line : String} (h : Ends line) (s : Session) (rest : List String) :
    converse s (line :: rest) = { respond s line with out := prompt ++ (respond s line).out } := by
  rw [converse, if_pos (respond_of_ends h s).1]

theorem converse_append (s : Session) {line : String} (h : Ends line) (front rest : List String) :
    converse s (front ++ line :: rest) = converse s (front ++ [line]) := by
  induction front generalizing s with
  | nil => rw [List.nil_append, List.nil_append, converse_of_ends h, converse_of_ends h]
  | cons first front ih => simp only [List.cons_append, converse, ih]

def heeded (lines : List String) : List String := lines.takeWhile (¬ Ends ·)

theorem heeded_cons_of_ends {line : String} (h : Ends line) (lines : List String) :
    heeded (line :: lines) = [] := by
  simp [heeded, h]

theorem heeded_cons_of_not_ends {line : String} (h : ¬ Ends line) (lines : List String) :
    heeded (line :: lines) = line :: heeded lines := by
  simp [heeded, h]

theorem not_ends_of_mem_heeded {line : String} {lines : List String} (h : line ∈ heeded lines) :
    ¬ Ends line := by
  simpa using List.mem_takeWhile_imp h

theorem converse_session {s : Session} (hs : s.Ready) (lines : List String) :
    (converse s lines).session = after s (heeded lines) := by
  induction lines generalizing s with
  | nil => rfl
  | cons line lines ih =>
    by_cases h : Ends line
    · rw [converse_of_ends h, heeded_cons_of_ends h]
      exact (respond_of_ends h s).2
    · have on : ¬ (respond s line).stop := by rwa [respond_stop_iff hs.fatal]
      rw [converse, if_neg on, heeded_cons_of_not_ends h]
      exact ih (respond_ready hs line)

theorem converse_ending {s : Session} (hs : s.Ready) (lines : List String) :
    (converse s lines).ending = .suppressed := by
  induction lines generalizing s with
  | nil => exact respond_ending hs.fatal _
  | cons line lines ih =>
    rw [converse]
    by_cases h : (respond s line).stop
    · rw [if_pos h]
      exact respond_ending hs.fatal line
    · rw [if_neg h]
      exact ih (respond_ready hs line)

def entered (lines : List String) : List String := lines ++ [Command.endOfInput.name]

theorem converse_out (s : Session) (lines : List String) :
    (converse s lines).out = String.join ((replies s (entered lines)).map (prompt ++ ·.out)) := by
  induction lines generalizing s with
  | nil =>
    have last : Ends Command.endOfInput.name := .inr rfl
    have stop := (respond_of_ends last s).1
    simp [entered, converse, replies, stop]
  | cons line lines ih =>
    rw [entered, List.cons_append, replies, converse]
    by_cases h : (respond s line).stop
    · simp only [if_pos h, List.map_cons, List.map_nil, String.join_cons, String.join_nil,
        String.append_empty]
    · rw [if_neg h, if_neg h, List.map_cons, String.join_cons]
      exact congrArg (_ ++ ·) (ih _)

theorem replies_at {s : Session} (hs : s.Ready) {front : List String}
    (h : ∀ line ∈ front, ¬ Ends line) (line : String) (rest : List String) :
    (replies s (front ++ line :: rest))[front.length]? = some (respond (after s front) line) := by
  induction front generalizing s with
  | nil =>
    rw [List.nil_append, replies]
    split <;> rfl
  | cons first front ih =>
    obtain ⟨here, others⟩ := List.forall_mem_cons.mp h
    have on : ¬ (respond s first).stop := by rwa [respond_stop_iff hs.fatal]
    simp only [List.cons_append, replies, if_neg on]
    exact ih (respond_ready hs first) others

structure Answers (now : Session) (line : String) (reply : Reply) : Prop where
  results : reply.session.results = []
  stop : reply.stop ↔ Ends line
  ending : reply.ending = .suppressed
  same : reply.Like (respond now line)
  tells : ¬ Ends line → Runs (strip line) →
    Tells (now.run (some (strip line))) (·.text ++ "\n") reply.out
  shows : ∀ source, Command.ofLine? (strip line) = some (.tree source) →
    Tells (now.parse source) (fun body => (Node.program body).display 0 ++ "\n") reply.out
  idle : ¬ Runs (strip line) → reply.session.environment = now.environment

theorem respond_answers {s now : Session} (h : s.Like now) (hs : s.Ready) (line : String) :
    Answers now line (respond s line) where
  results := (respond_ready hs line).results
  stop := respond_stop_iff hs.fatal line
  ending := respond_ending hs.fatal line
  same := respond_like h line
  tells he hr := by
    rw [(respond_like h line).out, respond_of_runs he hr]
    exact runLine_tells (h.fatal ▸ hs.fatal) _
  shows source hc := by
    rw [(respond_like h line).out, respond]
    simp only [hc]
    exact tree_tells (h.fatal ▸ hs.fatal) source
  idle hr := (respond_of_idle hr s).1.environment.trans h.environment

theorem converse_folds {reporter reporter' : Reporter} {path : String} {stored : String → Stored}
    {s : Session} (h : Session.start reporter path true stored = (reporter', .ok s))
    (lines : List String) :
    (∀ front line rest rest', Ends line →
      converse s (front ++ line :: rest) = converse s (front ++ line :: rest')) ∧
    (converse s lines).session.environment =
      (s.runAll (sources (heeded lines))).environment ∧
    (converse s lines).session.results = [] ∧
    (converse s lines).ending = .suppressed ∧
    (converse s lines).out = String.join ((replies s (entered lines)).map (prompt ++ ·.out)) ∧
    ∀ front line rest, entered lines = front ++ line :: rest → (∀ l ∈ front, ¬ Ends l) →
      ∃ reply, (replies s (entered lines))[front.length]? = some reply ∧
        Answers (s.withEnvironment (s.runAll (sources front)).environment) line reply := by
  have ready := Session.start_commandLine h
  refine ⟨?_, ?_, ?_, converse_ending ready lines, converse_out s lines, ?_⟩
  · intro front line rest rest' he
    rw [converse_append s he front rest, converse_append s he front rest']
  · rw [converse_session ready]
    exact (after_like (.refl s) ready fun _ => not_ends_of_mem_heeded).2.environment
  · rw [converse_session ready]
    exact (after_like (.refl s) ready fun _ => not_ends_of_mem_heeded).1.results
  · intro front line rest split hfront
    obtain ⟨kept, like⟩ := after_like (.refl s) ready hfront
    rw [split]
    exact ⟨_, replies_at ready hfront line rest,
      respond_answers (like.trans (s.runAll_like _)) kept line⟩

def interlude : List String := [" let x = true; ", "env", "exit = 1", ":ast x", "exit ", "x = false"]

theorem interlude_folds :
    ∃ s, Session.start ⟨true, .plain, none⟩ Session.typedPath true (fun _ => .missing) =
        (⟨false, .plain, none⟩, .ok s) ∧
      (converse s interlude).session.environment =
        (s.runAll ["let x = true;", "exit = 1"]).environment ∧
      ∃ reply, (replies s (entered interlude))[2]? = some reply ∧
        Answers (s.withEnvironment (s.runAll ["let x = true;"]).environment) "exit = 1" reply := by
  have started := Session.start_typed ⟨true, .plain, none⟩ fun _ => .missing
  obtain ⟨_, environment, _, _, _, answers⟩ := converse_folds started interlude
  have run : sources (heeded interlude) = ["let x = true;", "exit = 1"] := by decide +kernel
  have before : sources [" let x = true; ", "env"] = ["let x = true;"] := by decide +kernel
  have answered := answers [" let x = true; ", "env"] "exit = 1" _ rfl (by decide +kernel)
  rw [run] at environment
  rw [before] at answered
  exact ⟨_, started, environment, answered⟩

end Shell

end LetLang
