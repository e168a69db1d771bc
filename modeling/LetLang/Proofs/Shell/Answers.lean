import LetLang.Proofs.Session.Likeness
import LetLang.Proofs.Session.Locations
import LetLang.Shell

namespace LetLang.Shell

def Ends (line : String) : Prop := strip line = "exit" ∨ strip line = "EOF"

def Runs (text : String) : Prop :=
  text ≠ "" ∧ text ≠ "env" ∧ text ≠ "help" ∧ text ≠ "?" ∧ text ≠ ":ast" ∧
    ¬ ":ast ".toList <+: text.toList

instance : DecidablePred Ends := fun _ => inferInstanceAs (Decidable (_ ∨ _))

instance : DecidablePred Runs := fun _ => inferInstanceAs (Decidable (_ ∧ _))

namespace Command

theorem treeSource?_eq_none_iff {cs : List Char} :
    treeSource? cs = none ↔ cs ≠ ":ast".toList ∧ ¬ ":ast ".toList <+: cs := by
  have word : ":ast".toList = [':', 'a', 's', 't'] := String.toList_ofList
  have front : ":ast ".toList = [':', 'a', 's', 't', ' '] := String.toList_ofList
  rw [word, front]
  unfold treeSource?
  split
  · simp
  · rename_i rest
    simp
  · rename_i notWord notFront
    refine ⟨fun _ => ⟨notWord, ?_⟩, fun _ => rfl⟩
    rintro ⟨rest, rfl⟩
    exact notFront rest rfl

inductive Means : String → Option Command → Prop where
  | exit : Means "exit" (some exit)
  | endOfInput : Means "EOF" (some endOfInput)
  | environment : Means "env" (some environment)
  | help {text : String} (h : text = "help" ∨ text = "?") : Means text (some help)
  | tree {text : String} {source : List Char} (h : treeSource? text.toList = some source)
      (hn : text ≠ "exit" ∧ text ≠ "EOF") : Means text (some (.tree (String.ofList source)))
  | empty : Means "" none
  | source {text : String} (h : Runs text) : Means text none

theorem ofLine?_means (text : String) : Means text (ofLine? text) := by
  unfold ofLine?
  split
  · rename_i h
    exact h ▸ .exit
  · split
    · rename_i h
      exact h ▸ .endOfInput
    · split
      · rename_i h
        exact h ▸ .environment
      · split
        · exact .help ‹_›
        · rename_i notExit notEnd notEnvironment notHelp
          rw [not_or] at notHelp
          cases hs : treeSource? text.toList with
          | some source => exact .tree hs ⟨notExit, notEnd⟩
          | none =>
            obtain ⟨notWord, notFront⟩ := treeSource?_eq_none_iff.mp hs
            rw [Ne, String.toList_inj] at notWord
            by_cases empty : text = ""
            · exact empty ▸ .empty
            · exact .source ⟨empty, notEnvironment, notHelp.1, notHelp.2, notWord, notFront⟩

theorem empty_or_runs {text : String} (h : ofLine? text = none) : text = "" ∨ Runs text := by
  have means := ofLine?_means text
  rw [h] at means
  cases means with
  | empty => exact .inl rfl
  | source hr => exact .inr hr

theorem ofLine?_of_runs {text : String} (h : Runs text) (he : text ≠ "exit" ∧ text ≠ "EOF") :
    ofLine? text = none := by
  obtain ⟨_, notEnvironment, notHelp, notMark, notWord, notFront⟩ := h
  have noTree : treeSource? text.toList = none := by
    rw [treeSource?_eq_none_iff, Ne, String.toList_inj]
    exact ⟨notWord, notFront⟩
  rw [ofLine?, if_neg he.1, if_neg he.2, if_neg notEnvironment, if_neg (by simp [notHelp, notMark]),
    noTree, Option.map_none]

theorem ofLine?_of_stops {text : String} (h : text = "exit" ∨ text = "EOF") :
    ofLine? text = some exit ∨ ofLine? text = some endOfInput := by
  rcases h with rfl | rfl
  · exact .inl rfl
  · exact .inr rfl

def stops : Command → Bool
  | exit | endOfInput => true
  | _ => false

theorem Means.stops_iff {text : String} {command : Command} (h : Means text (some command)) :
    command.stops ↔ text = "exit" ∨ text = "EOF" := by
  cases h with
  | exit | endOfInput | environment => simp [stops]
  | help h => rcases h with rfl | rfl <;> simp [stops]
  | tree _ hn => simp [stops, hn]

theorem stops_of_ofLine? {text : String} {command : Command} (h : ofLine? text = some command) :
    command.stops ↔ text = "exit" ∨ text = "EOF" :=
  (h ▸ ofLine?_means text : Means text (some command)).stops_iff

end Command

structure Reply.Like (reply reply' : Reply) : Prop where
  out : reply.out = reply'.out
  stop : reply.stop = reply'.stop
  log : reply.log = reply'.log
  ending : reply.ending = reply'.ending
  session : reply.session.Like reply'.session

variable {s s' : Session}

theorem guarded_like {α : Type} {r r' : Run α} (h : r.Like r') (textOf : α → String) :
    (guarded r textOf).Like (guarded r' textOf) := by
  have result := h.result
  cases hr : r'.result with
  | ok a =>
    rw [hr] at result
    simp only [guarded, result, hr]
    exact ⟨rfl, rfl, h.log, rfl, h.session⟩
  | error failure =>
    rw [hr] at result
    simp only [guarded, result, hr, h.reporter]
    exact ⟨rfl, rfl, h.log, rfl, h.session⟩

theorem pop_like (s : Session) : s.pop.session.Like s := by
  unfold Session.pop
  split <;> exact ⟨rfl, rfl, rfl, rfl⟩

theorem runLine_like (h : s.Like s') (source : String) :
    (runLine s source).Like (runLine s' source) := by
  have run := h.run source
  have result := run.result
  cases hr : (s'.run (some source)).result with
  | ok v =>
    rw [hr] at result
    simp only [runLine, guarded, result, hr]
    exact ⟨rfl, rfl, run.log, rfl, (pop_like _).trans (run.session.trans (pop_like _).symm)⟩
  | error failure =>
    rw [hr] at result
    simp only [runLine, result, hr]
    exact guarded_like run _

theorem perform_like (h : s.Like s') (command : Command) :
    (perform s command).Like (perform s' command) := by
  cases command with
  | exit | endOfInput | help => exact ⟨rfl, rfl, rfl, rfl, h⟩
  | environment =>
    refine ⟨?_, rfl, rfl, rfl, h⟩
    simp only [perform, Session.bindings, h.environment]
  | tree source => exact guarded_like (h.parse source) _

theorem respond_like (h : s.Like s') (line : String) :
    (respond s line).Like (respond s' line) := by
  cases hc : Command.ofLine? (strip line) with
  | some command =>
    simp only [respond, hc]
    exact perform_like h command
  | none =>
    simp only [respond, hc]
    split
    · exact ⟨rfl, rfl, rfl, rfl, h⟩
    · exact runLine_like h _

theorem respond_of_ends {line : String} (h : Ends line) (s : Session) :
    (respond s line).stop = true ∧ (respond s line).session = s := by
  rcases Command.ofLine?_of_stops h with hc | hc <;> simp only [respond, hc, perform, and_self]

theorem respond_of_runs {line : String} (h : ¬ Ends line) (hr : Runs (strip line)) (s : Session) :
    respond s line = runLine s (strip line) := by
  obtain ⟨notExit, notEnd⟩ := not_or.mp h
  have source : Command.ofLine? (strip line) = none :=
    Command.ofLine?_of_runs hr ⟨notExit, notEnd⟩
  have filled : ¬ (strip line).isEmpty := by simpa using hr.1
  simp only [respond, source, if_neg filled]

theorem guarded_parse_session (s : Session) (source : String) (textOf : List Node → String) :
    (guarded (s.parse source) textOf).session = (s.parse source).session := by
  unfold guarded
  split <;> rfl

theorem perform_session (s : Session) (command : Command) :
    (perform s command).session.Like s ∧ (perform s command).session.results = s.results := by
  cases command with
  | tree source =>
    rw [perform, guarded_parse_session]
    refine ⟨s.parse_like source, ?_⟩
    rw [Session.parse_session]
  | _ => exact ⟨.refl s, rfl⟩

theorem respond_of_idle {line : String} (hr : ¬ Runs (strip line)) (s : Session) :
    (respond s line).session.Like s ∧ (respond s line).session.results = s.results := by
  cases hc : Command.ofLine? (strip line) with
  | some command =>
    simp only [respond, hc]
    exact perform_session s command
  | none =>
    have nothing : (strip line).isEmpty := by
      simpa using (Command.empty_or_runs hc).resolve_right hr
    simp only [respond, hc, if_pos nothing]
    exact ⟨.refl s, trivial⟩

structure Diagnosed {α : Type} (r : Run α) : Prop where
  fatal : r.session.reporter.fatal = false
  diagnostic : ∀ failure, r.result = .error failure → ∃ d, failure = .diagnostic d

theorem run_diagnosed (hf : s.reporter.fatal = false) (source : String) :
    Diagnosed (s.run (some source)) where
  fatal := (s.run_like source).fatal.trans hf
  diagnostic := by
    intro failure hr
    rcases (s.run_concludes source).cases with ⟨v, hv⟩ | ⟨d, hd, _⟩
    · cases hr.symm.trans hv
    · exact ⟨d, Except.error.inj (hr.symm.trans hd)⟩

theorem parse_diagnosed (hf : s.reporter.fatal = false) (source : String) :
    Diagnosed (s.parse source) where
  fatal := (s.parse_like source).fatal.trans hf
  diagnostic := by
    intro failure hr
    obtain ⟨d, _, _, rfl, _⟩ := s.parse_error_points hr
    exact ⟨d, rfl⟩

theorem handle_diagnostic {r : Reporter} (hf : r.fatal = false) (d : Diagnostic) :
    r.handle (.failure (.diagnostic d)) = (r.report d, .suppressed) := by
  rw [Reporter.handle, Reporter.handle.told, hf, if_neg Bool.false_ne_true]

structure Reply.GoesOn (reply : Reply) : Prop where
  stop : reply.stop = false
  ending : reply.ending = .suppressed

theorem guarded_goesOn {α : Type} {r : Run α} (h : Diagnosed r) (textOf : α → String) :
    (guarded r textOf).GoesOn := by
  cases hr : r.result with
  | ok a =>
    simp only [guarded, hr]
    exact ⟨rfl, rfl⟩
  | error failure =>
    obtain ⟨d, rfl⟩ := h.diagnostic failure hr
    simp only [guarded, hr, handle_diagnostic h.fatal]
    exact ⟨rfl, rfl⟩

theorem runLine_goesOn (hf : s.reporter.fatal = false) (source : String) :
    (runLine s source).GoesOn := by
  cases hr : (s.run (some source)).result with
  | ok v =>
    simp only [runLine, guarded, hr]
    exact ⟨rfl, rfl⟩
  | error failure =>
    simp only [runLine, hr]
    exact guarded_goesOn (run_diagnosed hf source) _

theorem perform_ends (hf : s.reporter.fatal = false) (command : Command) :
    (perform s command).stop = command.stops ∧ (perform s command).ending = .suppressed := by
  cases command with
  | tree source =>
    have on := guarded_goesOn (parse_diagnosed hf source) fun body =>
      (Node.program body).display 0 ++ "\n"
    exact ⟨on.stop, on.ending⟩
  | _ => exact ⟨rfl, rfl⟩

theorem respond_stop_iff (hf : s.reporter.fatal = false) (line : String) :
    (respond s line).stop ↔ Ends line := by
  cases hc : Command.ofLine? (strip line) with
  | some command =>
    simp only [respond, hc, (perform_ends hf command).1]
    exact Command.stops_of_ofLine? hc
  | none =>
    have on : ¬ Ends line := by
      intro h
      rcases Command.ofLine?_of_stops h with stops | stops <;> cases hc.symm.trans stops
    simp only [respond, hc, on, iff_false]
    split
    · exact Bool.false_ne_true
    · rw [(runLine_goesOn hf _).stop]
      exact Bool.false_ne_true

theorem respond_ending (hf : s.reporter.fatal = false) (line : String) :
    (respond s line).ending = .suppressed := by
  cases hc : Command.ofLine? (strip line) with
  | some command =>
    simp only [respond, hc]
    exact (perform_ends hf command).2
  | none =>
    simp only [respond, hc]
    split
    · rfl
    · exact (runLine_goesOn hf _).ending

theorem runLine_session (hs : s.results = []) (source : String) :
    (runLine s source).session.Like (s.run (some source)).session ∧
    (runLine s source).session.results = [] := by
  have results := s.run_results source
  rw [hs, List.nil_append] at results
  cases hr : (s.run (some source)).result with
  | ok v =>
    rw [hr] at results
    simp only [runLine, guarded, hr]
    refine ⟨pop_like _, ?_⟩
    simp [Session.pop, results, Except.toOption]
  | error failure =>
    rw [hr] at results
    simp only [runLine, guarded, hr]
    exact ⟨.refl _, results⟩

def Tells {α : Type} (r : Run α) (textOf : α → String) (out : String) : Prop :=
  (∃ a, r.result = .ok a ∧ out = textOf a) ∨
  ∃ d, r.result = .error (.diagnostic d) ∧
    r.session.reporter.handle (.failure (.diagnostic d)) = (out, .suppressed)

theorem guarded_tells {α : Type} {r : Run α} (h : Diagnosed r) (textOf : α → String) :
    Tells r textOf (guarded r textOf).out := by
  cases hr : r.result with
  | ok a => exact .inl ⟨a, hr, by simp only [guarded, hr]⟩
  | error failure =>
    obtain ⟨d, rfl⟩ := h.diagnostic failure hr
    refine .inr ⟨d, hr, ?_⟩
    simp only [guarded, hr, handle_diagnostic h.fatal]

theorem runLine_tells (hf : s.reporter.fatal = false) (source : String) :
    Tells (s.run (some source)) (·.text ++ "\n") (runLine s source).out := by
  have told := guarded_tells (run_diagnosed hf source) fun v => v.text ++ "\n"
  cases hr : (s.run (some source)).result with
  | ok v => simpa only [runLine, guarded, hr] using told
  | error failure => simpa only [runLine, hr] using told

theorem tree_tells (hf : s.reporter.fatal = false) (source : String) :
    Tells (s.parse source) (fun body => (Node.program body).display 0 ++ "\n")
      (perform s (.tree source)).out :=
  guarded_tells (parse_diagnosed hf source) _

end LetLang.Shell
