import LetLang.Proofs.Diagnostic.Locations
import LetLang.Proofs.Lexing.Layout
import LetLang.Proofs.Lexing.Refusals
import LetLang.Proofs.Session.Safety

namespace LetLang
open Position Token

inductive Stands (source : List Char) : Position → Option String → Prop where
  | text {front rest : List Char} {text : String} (h : source = front ++ text.toList ++ rest)
      (hne : text ≠ "") (hs : ∀ c ∈ text.toList, ¬ isSpace c) :
      Stands source (behind front) (some text)
  | finish : Stands source (behind source) none

theorem scan_error_stands {source : String} {fault : LexicalFault}
    (h : scan source = .error fault) :
    Stands source.toList fault.position (some fault.char.toString) := by
  obtain ⟨front, rest, hsource, blocked⟩ := (refuses_of_error h).split
  have char : fault.char.toString.toList = [fault.char] := String.toList_singleton _
  have split : source.toList = front ++ fault.char.toString.toList ++ rest := by
    rw [hsource, char, List.append_assoc, List.singleton_append]
  rw [blocked.position, start_afterAll]
  refine .text split ?_ ?_
  · intro empty
    rw [empty] at char
    cases char
  · rw [char]
    exact List.forall_mem_singleton.mpr blocked.visible

theorem scan_ok_stands {source : String} {tokens : List Token} (h : scan source = .ok tokens)
    {t : Token} (ht : t ∈ tokens) :
    (t.kind ≠ .endOfInput ∧ Stands source.toList t.position (some t.text)) ∨
      (t.kind = .endOfInput ∧ t.text = "" ∧ Stands source.toList t.position none) := by
  obtain ⟨ts, q, scans, rfl⟩ := exists_scans h
  rcases List.mem_append.mp ht with inside | last
  · obtain ⟨os, hos, layout⟩ := scans.layout [] rfl
    rw [← hos] at inside
    obtain ⟨o, ho, rfl⟩ := List.mem_map.mp inside
    have placed : o.Placed source.toList := layout.placed o ho
    have inner := scans.inner o.token (hos ▸ List.mem_map_of_mem ho)
    obtain ⟨front, rest, hsource, place⟩ := placed.split
    refine .inl ⟨inner, ?_⟩
    rw [place]
    exact .text hsource placed.nonempty placed.no_space
  · obtain rfl := List.mem_singleton.mp last
    have atEnd : q = behind source.toList := by rw [scans.stop_eq, start_afterAll]
    refine .inr ⟨rfl, rfl, ?_⟩
    rw [atEnd]
    exact .finish

theorem Stands.length_pos {source : List Char} {p : Position} {text : String}
    (h : Stands source p (some text)) : 0 < text.length := by
  cases h with
  | text _ hne _ =>
    rw [← String.length_toList]
    exact List.length_pos_iff.mpr (mt String.toList_eq_nil_iff.mp hne)

def markWidth (about : Option String) : Nat := about.elim 1 String.length

theorem Stands.row {source : List Char} {p : Position} {about : Option String}
    (h : Stands source p about) :
    ∃ row, sourceLine source p.line = some row ∧ 1 ≤ p.col ∧
      (∀ text, about = some text → (row.drop p.indent).take text.length = text.toList) ∧
      (about = none → row.length ≤ p.indent) ∧
      Span.width row p.indent (markWidth about) = markWidth about := by
  have positive : ∀ text, about = some text → 0 < text.length := by
    rintro text rfl
    exact h.length_pos
  cases h with
  | @text front rest text hsource hne hs =>
    have bare : ∀ c ∈ text.toList, c ≠ '\n' ∧ c ≠ '\r' := by
      intro c hc
      constructor <;> rintro rfl <;> exact hs _ hc (by decide)
    have nonempty : text.toList ≠ [] := mt String.toList_eq_nil_iff.mp hne
    obtain ⟨row, line, slice, inside⟩ := sourceLine_at front rest nonempty bare
    rw [← hsource] at line
    refine ⟨row, line, one_le_col_behind front, ?_, ?_, ?_⟩
    · rintro _ ⟨⟩
      exact slice
    · intro absent
      cases absent
    · have room := positive text rfl
      rw [String.length_toList] at inside
      simp only [Span.width, markWidth, Option.elim_some]
      omega
  | finish =>
    obtain ⟨row, line, short⟩ := sourceLine_end source
    refine ⟨row, line, one_le_col_behind source, ?_, fun _ => short, ?_⟩
    · intro text shown
      cases shown
    · simp only [Span.width, markWidth, Option.elim_none]
      omega

namespace Session

theorem parse_registers (s : Session) (source : String) :
    (s.parse source).session.reporter.registered = some ⟨s.path, source⟩ := by
  rw [parse_session]
  rfl

theorem parse_of_scan_error {source : String} {fault : LexicalFault}
    (hs : scan source = .error fault) (s : Session) :
    (s.parse source).result = .error (.ofLexical fault) := by
  simp only [parse, hs]

theorem parse_of_body_error {source : String} {tokens : List Token} {fault : ParseFault}
    (hs : scan source = .ok tokens) (hb : Parser.body tokens = .error fault) (s : Session) :
    (s.parse source).result = .error (.ofParse fault) := by
  simp only [parse, hs, hb]

theorem parse_error_points {s : Session} {source : String} {failure : Failure}
    (h : (s.parse source).result = .error failure) :
    ∃ d p about, failure = .diagnostic d ∧ d.cause.About about ∧ Stands source.toList p about ∧
      d.PointsAt p (markWidth about) := by
  cases hs : scan source with
  | error fault =>
    obtain rfl := Except.error.inj ((parse_of_scan_error hs s).symm.trans h)
    obtain ⟨d, hd, cause⟩ := Failure.ofLexical_reports fault
    have one : fault.char.toString.length = 1 := String.length_singleton
    refine ⟨d, fault.position, some fault.char.toString, hd, cause ▸ .char _,
      scan_error_stands hs, ?_⟩
    rw [markWidth, Option.elim_some, one]
    exact Failure.ofLexical_pointsAt hd
  | ok tokens =>
    cases hb : Parser.body tokens with
    | ok ns =>
      simp only [parse, hs, hb] at h
      cases h
    | error fault =>
      obtain rfl := Except.error.inj ((parse_of_body_error hs hb s).symm.trans h)
      obtain ⟨c, found, rfl, native, here⟩ := Grammar.program_error_found (scan_terminated hs)
        (scan_numbers hs) (Grammar.program_eq_error_iff.mpr hb)
      obtain ⟨d, hd, cause⟩ := Failure.ofParse_reports native found
      have points := Failure.ofParse_pointsAt hd
      rcases scan_ok_stands hs (List.mem_of_getElem? here) with
        ⟨inner, stands⟩ | ⟨last, bare, stands⟩
      · refine ⟨d, found.position, some found.text, hd, cause ▸ .token _ found inner, stands, ?_⟩
        rwa [Nat.max_eq_left stands.length_pos] at points
      · refine ⟨d, found.position, none, hd, cause ▸ .finish _ found last, stands, ?_⟩
        rw [bare] at points
        exact points

end Session

theorem parse_error_shown {s : Session} {source : String} {failure : Failure}
    (h : (s.parse source).result = .error failure) :
    (s.parse source).session.reporter.registered = some ⟨s.path, source⟩ ∧
    ∃ (d : Diagnostic) (p : Position) (row : List Char) (about : Option String),
      failure = .diagnostic d ∧ d.line = some p.line ∧ d.col = some p.col ∧ 1 ≤ p.col ∧
      d.cause.About about ∧
      (s.parse source).session.reporter.line? d = some row ∧
      (∀ text, about = some text →
        d.length = text.length ∧ (row.drop p.indent).take d.length = text.toList) ∧
      (about = none → d.length = 1 ∧ row.length ≤ p.indent) ∧
      ∀ r : Reporter, r.registered = some ⟨s.path, source⟩ → r.fatal = false →
        r.painter.colored = false →
        r.handle (.failure failure) =
          (s.path ++ ":" ++ toString p.line ++ ":" ++ toString p.col ++ ": " ++
            d.cause.label ++ ": " ++ d.message ++ "\n" ++
            "  " ++ String.ofList row ++ "\n" ++
            "  " ++ String.ofList (List.replicate p.indent ' ') ++
            String.ofList ('^' :: List.replicate (d.length - 1) '~') ++ "\n", .suppressed) := by
  have registered := s.parse_registers source
  obtain ⟨d, p, about, rfl, concerns, stands, points⟩ := Session.parse_error_points h
  obtain ⟨row, line, positive, shown, finish, width⟩ := stands.row
  refine ⟨registered, d, p, row, about, rfl, points.line, points.col, positive, concerns,
    ?_, ?_, ?_, ?_⟩
  · rw [Reporter.line?_of_pointsAt registered points, line]
  · rintro text rfl
    rw [points.length]
    exact ⟨rfl, shown text rfl⟩
  · rintro rfl
    exact ⟨points.length, finish rfl⟩
  · intro r hr hf hc
    rw [Reporter.handle, Reporter.handle.told, Reporter.report_plain hr hc points positive line, hf,
      width, if_neg Bool.false_ne_true, points.length]

def unclosedAtEnd : Failure :=
  .ofParse (.unexpected .closingParen ⟨.endOfInput, "", ⟨2, 5⟩⟩)

theorem parse_error_shown_at_end :
    (freshSession.parse "x\r\n (y\r").result = .error unclosedAtEnd ∧
    ∃ (d : Diagnostic) (p : Position) (row : List Char) (about : Option String),
      unclosedAtEnd = .diagnostic d ∧ d.line = some p.line ∧ d.col = some p.col ∧
      d.cause.About about ∧
      (freshSession.parse "x\r\n (y\r").session.reporter.line? d = some row ∧
      (about = none → d.length = 1 ∧ row.length ≤ p.indent) := by
  have stopped : Parser.body [⟨.identifier, "x", ⟨1, 1⟩⟩, ⟨.openParen, "(", ⟨2, 2⟩⟩,
      ⟨.identifier, "y", ⟨2, 3⟩⟩, ⟨.endOfInput, "", ⟨2, 5⟩⟩] =
      .error (.unexpected .closingParen ⟨.endOfInput, "", ⟨2, 5⟩⟩) := by
    cbv
  have scanned : scan "x\r\n (y\r" = .ok [⟨.identifier, "x", ⟨1, 1⟩⟩, ⟨.openParen, "(", ⟨2, 2⟩⟩,
      ⟨.identifier, "y", ⟨2, 3⟩⟩, ⟨.endOfInput, "", ⟨2, 5⟩⟩] := by
    with_unfolding_all rfl
  have failed : (freshSession.parse "x\r\n (y\r").result = .error unclosedAtEnd :=
    Session.parse_of_body_error scanned stopped freshSession
  obtain ⟨_, d, p, row, about, hd, line, col, _, concerns, shown, _, finish, _⟩ :=
    parse_error_shown failed
  exact ⟨failed, d, p, row, about, hd, line, col, concerns, shown, finish⟩

end LetLang
