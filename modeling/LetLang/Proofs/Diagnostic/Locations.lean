import LetLang.Diagnostic.Reporter
import LetLang.Proofs.Diagnostic.Excerpts
import LetLang.Proofs.Diagnostic.Rows

namespace LetLang

inductive Cause.About : Cause → Option String → Prop where
  | char (char : String) : About (.lexical char) (some char)
  | token (expected : Option TokenKind) (t : Token) (h : t.kind ≠ .endOfInput) :
      About (.parse expected (some t)) (some t.text)
  | finish (expected : Option TokenKind) (t : Token) (h : t.kind = .endOfInput) :
      About (.parse expected (some t)) none

structure Diagnostic.PointsAt (d : Diagnostic) (p : Position) (length : Nat) : Prop where
  line : d.line = some p.line
  col : d.col = some p.col
  length : d.length = length
  excerpted : d.excerpted = true
  internal : d.internal = false

theorem Diagnostic.placed_pointsAt (cause : Cause) (message : String) (p : Position) (n : Nat) :
    ((plain cause message).placed (some p.line) (some p.col) n).PointsAt p (max n 1) :=
  ⟨rfl, rfl, rfl, rfl, rfl⟩

namespace Failure

theorem of_composed {cause : Cause} {template : String} {args : List String}
    {f : Diagnostic → Diagnostic} {d : Diagnostic}
    (h : ofComposed (f <$> Diagnostic.compose cause template args) = .diagnostic d) :
    ∃ message, d = f (Diagnostic.plain cause message) := by
  rw [Diagnostic.compose] at h
  cases hf : Template.fill template args with
  | ok message =>
    rw [hf] at h
    cases h
    exact ⟨message, rfl⟩
  | error fault =>
    rw [hf] at h
    cases h

theorem ofLexical_pointsAt {fault : LexicalFault} {d : Diagnostic}
    (h : ofLexical fault = .diagnostic d) : d.PointsAt fault.position 1 := by
  obtain ⟨message, rfl⟩ := of_composed h
  exact Diagnostic.placed_pointsAt _ message fault.position 1

theorem ofParse_pointsAt {c : Complaint} {t : Token} {d : Diagnostic}
    (h : ofParse (.unexpected c t) = .diagnostic d) :
    d.PointsAt t.position (max t.text.length 1) := by
  rw [ofParse, Diagnostic.parse.eq_def] at h
  cases hc : c.expected with
  | none =>
    rw [hc] at h
    obtain ⟨message, rfl⟩ := of_composed h
    exact Diagnostic.placed_pointsAt _ message t.position _
  | some kind =>
    rw [hc] at h
    obtain ⟨message, rfl⟩ := of_composed h
    exact Diagnostic.placed_pointsAt _ message t.position _

end Failure

namespace Reporter

variable {r : Reporter} {d : Diagnostic} {p : Position} {length : Nat} {path source : String}

theorem line?_of_pointsAt (hr : r.registered = some ⟨path, source⟩) (hd : d.PointsAt p length) :
    r.line? d = sourceLine source.toList p.line := by
  rw [line?, hr, hd.line]
  rfl

theorem heading_plain (hr : r.registered = some ⟨path, source⟩) (hc : r.painter.colored = false)
    (hd : d.PointsAt p length) :
    r.heading d = path ++ ":" ++ toString p.line ++ ":" ++ toString p.col ++ ": " ++
      d.cause.label ++ ": " ++ d.message := by
  have place : r.location d = path ++ ":" ++ toString p.line ++ ":" ++ toString p.col ++ ": " := by
    rw [location, hr, hd.line, hd.col]
    exact r.painter.uncolored hc _ _
  rw [heading, place, hd.internal, if_neg Bool.false_ne_true, r.painter.uncolored hc]
  simp only [String.append_assoc, String.empty_append]

theorem report_plain {row : List Char} (hr : r.registered = some ⟨path, source⟩)
    (hc : r.painter.colored = false) (hd : d.PointsAt p length) (hp : 1 ≤ p.col)
    (hrow : sourceLine source.toList p.line = some row) :
    r.report d = path ++ ":" ++ toString p.line ++ ":" ++ toString p.col ++ ": " ++
      d.cause.label ++ ": " ++ d.message ++ "\n" ++
      "  " ++ String.ofList row ++ "\n" ++
      "  " ++ String.ofList (List.replicate p.indent ' ') ++
      String.ofList ('^' :: List.replicate (Span.width row p.indent length - 1) '~') ++ "\n" := by
  have excerpt : r.excerpt? d = some (Excerpt.text r.painter row p.col length) := by
    rw [excerpt?, hd.internal, hd.excerpted, line?_of_pointsAt hr hd, hrow, hd.col, hd.length]
    rfl
  rw [report, heading_plain hr hc hd, excerpt, Excerpt.text_plain hc row hp, Position.indent]
  simp only [String.append_assoc]

end Reporter

end LetLang
