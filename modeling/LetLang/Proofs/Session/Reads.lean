import LetLang.Proofs.Evaluation.Sequencing
import LetLang.Proofs.Grammar.Acceptance
import LetLang.Proofs.Grammar.Relocation
import LetLang.Proofs.Lexing.Joining
import LetLang.Proofs.Lexing.Lexed
import LetLang.Session

namespace LetLang
open Token Grammar

theorem Grammar.Statements.down {ts : List Token} {ns : List Node} (h : Statements ts ns)
    (k : Int) : Statements (ts.map (Token.down k)) ns := by
  have moves : Moves (Token.down k) := ⟨fun _ => rfl, fun _ => rfl⟩
  rw [← statements_reading_iff (Token.down k (sample .endOfInput)),
    Parser.statements_moved moves, statements_reads _ h]
  rfl

def Reads (source : String) (body : List Node) : Prop :=
  ∃ tokens, scan source = .ok tokens ∧ Parser.body tokens = .ok body

theorem reads_iff {source : String} {body : List Node} :
    Reads source body ↔
      ∃ ts q, Scans Position.start source.toList ts q ∧ Statements ts body := by
  constructor
  · rintro ⟨tokens, hs, hb⟩
    obtain ⟨ts, q, ht, rfl⟩ := exists_scans hs
    rw [body_eq ht.inner rfl (terminated_concat ts rfl)] at hb
    exact ⟨ts, q, ht, (statements_reading_iff _).mp hb⟩
  · rintro ⟨ts, q, hs, hb⟩
    refine ⟨_, hs.scanFrom_eq, ?_⟩
    rw [body_eq hs.inner rfl (terminated_concat ts rfl)]
    exact (statements_reading_iff _).mpr hb

theorem Reads.joined {a b : String} {ns ms : List Node} (ha : Reads a ns) (hb : Reads b ms) :
    Reads (a ++ "\n" ++ b) (ns ++ ms) := by
  obtain ⟨ts, q, hs, hn⟩ := reads_iff.mp ha
  obtain ⟨us, r, ht, hm⟩ := reads_iff.mp hb
  have lower := (ht.down q.line).scanFrom_eq
  have whole : scan (a ++ "\n" ++ b) =
      .ok (ts ++ us.map (Token.down q.line) ++ [⟨.endOfInput, "", r.down q.line⟩]) := by
    rw [hs.scan_line, lower, List.append_assoc]
    rfl
  obtain ⟨vs, s, hv, he⟩ := exists_scans whole
  obtain ⟨rfl, _⟩ := List.append_inj' he rfl
  exact reads_iff.mpr ⟨_, s, hv, hn.append (hm.down q.line)⟩

namespace Session

def Does (r : Run Value) (o : Outcome Value) : Prop :=
  r.result = o.result.mapError .ofEval ∧ r.session.environment = o.environment

theorem execute_does (s : Session) (body : List Node) :
    Does (s.execute body) (evaluateAll Dispatch.standard .null body s.environment) := by
  have evaluated : Kind.program ∈ Dispatch.standard.evaluated := by decide
  have arm := Dispatch.arm_outcome evaluated (evaluateAll Dispatch.standard .null body)
    s.environment
  rw [← evaluate_program] at arm
  rw [Does, ← arm.1, ← arm.2]
  unfold execute
  cases h : (evaluate Dispatch.standard (.program body) s.environment).result with
  | ok v => exact ⟨by simp only [h]; rfl, by simp only [h]⟩
  | error fault => exact ⟨by simp only [h]; rfl, by simp only [h]⟩

theorem run_some (s : Session) (source : String) : s.run (some source) = s.runSource source :=
  rfl

theorem parse_of_reads {source : String} {body : List Node} (h : Reads source body) (s : Session) :
    (s.parse source).result = .ok body ∧ (s.parse source).session.environment = s.environment := by
  obtain ⟨tokens, hs, hb⟩ := h
  simp only [parse, hs, hb, and_self]

theorem run_of_reads {source : String} {body : List Node} (h : Reads source body) (s : Session) :
    Does (s.run (some source)) (evaluateAll Dispatch.standard .null body s.environment) := by
  obtain ⟨hr, he⟩ := parse_of_reads h s
  have does := execute_does (s.parse source).session body
  rw [he] at does
  simpa only [run_some, runSource, hr, Does] using does

end Session

end LetLang
