import LetLang.Proofs.Environment.Histories
import LetLang.Session

namespace LetLang

namespace Session

inductive Reachable : Session → Prop where
  | start {reporter reporter' : Reporter} {path : String} {commandLine : Bool}
      {read : String → Stored} {s : Session}
      (h : Session.start reporter path commandLine read = (reporter', .ok s)) : Reachable s
  | parse {s : Session} (source : String) (h : Reachable s) : Reachable (s.parse source).session
  | run {s : Session} (source : Option String) (h : Reachable s) : Reachable (s.run source).session
  | pop {s : Session} (h : Reachable s) : Reachable s.pop.session

theorem start_eq {reporter reporter' : Reporter} {path : String} {commandLine : Bool}
    {read : String → Stored} {s : Session}
    (h : Session.start reporter path commandLine read = (reporter', .ok s)) :
    s = ⟨.global, [], path, s.source, s.reporter⟩ := by
  obtain ⟨_, result⟩ := Prod.mk.injEq .. ▸ h
  split at result
  · split at result
    · cases result
      rfl
    · cases result
  · cases loaded : load path (read path) with
    | ok text =>
      rw [loaded] at result
      cases result
      rfl
    | error failure =>
      rw [loaded] at result
      cases result

theorem start_environment {reporter reporter' : Reporter} {path : String} {commandLine : Bool}
    {read : String → Stored} {s : Session}
    (h : Session.start reporter path commandLine read = (reporter', .ok s)) :
    s.environment = .global := by
  rw [start_eq h]

theorem parse_environment (s : Session) (source : String) :
    (s.parse source).session.environment = s.environment := by
  rw [parse_session]

theorem parse_declarations (s : Session) (source : String) :
    Event.declarations (s.parse source).log = [] := by
  unfold parse
  split
  · rfl
  · split
    · rfl
    · rfl

theorem execute_grows (s : Session) (body : List Node) :
    s.environment.Grows (s.execute body).log (s.execute body).session.environment := by
  have grown := Evaluation.grows_closed.evaluate .standard (.program body) s.environment
  cases h : (evaluate .standard (.program body) s.environment).result with
  | ok v =>
    simp only [execute, h]
    exact ⟨grown.innermost, grown.enclosing⟩
  | error fault =>
    simp only [execute, h]
    exact ⟨grown.innermost, grown.enclosing⟩

theorem runSource_grows (s : Session) (source : String) :
    s.environment.Grows (s.runSource source).log (s.runSource source).session.environment := by
  have parsed : s.environment.Grows (s.parse source).log (s.parse source).session.environment := by
    rw [parse_environment]
    exact Environment.grows_of_quiet (parse_declarations s source) (.refl _) (.refl _)
  cases h : (s.parse source).result with
  | error failure =>
    simp only [runSource, h]
    exact parsed
  | ok body =>
    simp only [runSource, h]
    exact parsed.trans (execute_grows _ body)

theorem run_grows (s : Session) (source : Option String) :
    s.environment.Grows (s.run source).log (s.run source).session.environment := by
  unfold run
  split
  · exact runSource_grows s _
  · exact Environment.grows_of_quiet rfl (.refl _) (.refl _)

theorem pop_environment (s : Session) : s.pop.session.environment = s.environment := by
  unfold pop
  split
  · rfl
  · rfl

theorem Reachable.global_first {s : Session} (h : Reachable s) :
    ∃ rest, s.bindings = Scope.global.bindings ++ rest := by
  induction h with
  | start h => exact ⟨[], by rw [bindings, start_environment h]; rfl⟩
  | parse source _ ih =>
    rw [bindings, parse_environment]
    exact ih
  | pop _ ih =>
    rw [bindings, pop_environment]
    exact ih
  | @run s source _ ih =>
    obtain ⟨rest, first⟩ := ih
    have kept := (run_grows s source).innermost
    rw [← bindings, first, List.append_assoc] at kept
    exact kept.of_constant (by decide)

end Session

theorem bindings_only_extended :
    (∀ (f : Forest) (operations : List Forest.Operation) (i : Nat),
      Kept (f.bindings i ++ Forest.declaredIn i (f.run operations).log)
        ((f.run operations).forest.bindings i) ∧
      ∀ s, (f.run operations).forest.scope? i = some s → s.constants ⊆ s.names) ∧
    ∀ s : Session, s.Reachable →
      ∃ rest, s.bindings =
        [⟨"true", .boolean true, true⟩, ⟨"false", .boolean false, true⟩, ⟨"null", .null, true⟩] ++
          rest :=
  ⟨fun f operations i => ⟨f.run_kept operations i, fun s _ => s.constants_subset⟩,
    fun _ h => h.global_first⟩

def shadowing : List Forest.Operation :=
  [.child 0, .declare 1 "null" (.boolean true) true, .assign 1 "null" .null, .assign 1 "true" .null,
    .evaluate 1 (.program [.declaration "x" (some (.identifier "null")) false, .identifier "y"])]

theorem shadowing_only_extends :
    (∃ s, ((Forest.ofRoot .global).run shadowing).forest.scope? 1 = some s ∧
      s.bindings = [⟨"null", .boolean true, true⟩, ⟨"x", .boolean true, false⟩] ∧
      s.constants ⊆ s.names) ∧
    Kept (Forest.declaredIn 1 ((Forest.ofRoot .global).run shadowing).log)
      (((Forest.ofRoot .global).run shadowing).forest.bindings 1) ∧
    ∃ s, Session.start ⟨true, .plain, none⟩ Session.typedPath true (fun _ => .missing) =
        (⟨false, .plain, none⟩, .ok s) ∧
      ∃ rest, (s.run (some "let x = true;")).session.bindings =
        [⟨"true", .boolean true, true⟩, ⟨"false", .boolean false, true⟩, ⟨"null", .null, true⟩] ++
          rest := by
  obtain ⟨kept, constants⟩ := bindings_only_extended.1 (Forest.ofRoot .global) shadowing 1
  have child : (((Forest.ofRoot .global).run shadowing).forest.scope? 1).map Scope.bindings =
      some [⟨"null", .boolean true, true⟩, ⟨"x", .boolean true, false⟩] := by
    with_unfolding_all rfl
  obtain ⟨s, found, held⟩ := Option.map_eq_some_iff.mp child
  have started := Session.start_typed ⟨true, .plain, none⟩ fun _ => .missing
  exact ⟨⟨s, found, held, constants s found⟩, kept, _, started,
    bindings_only_extended.2 _ (.run _ (.start started))⟩

end LetLang
