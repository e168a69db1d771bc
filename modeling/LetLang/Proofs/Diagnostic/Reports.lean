import LetLang.Diagnostic.Failure
import LetLang.Proofs.Diagnostic.Templates
import LetLang.Proofs.Grammar.Obedience

namespace LetLang
open Grammar Template

def NameFault.cause : NameFault → Cause
  | .redeclared name => .redeclaration name
  | .constant name => .constantAssignment name
  | .unbound name => .unboundName name

def EvalFault.cause? : EvalFault → Option Cause
  | .name fault => some fault.cause
  | .invalidTarget _ => some (.evaluation (some .assignment))
  | .operandTypes _ _ _ => some (.evaluation (some .binary))
  | .unknownOperator _ => some (.evaluation (some .binary))
  | .unsupported label => some (.unsupported label)
  | .missingField _ _ => none

theorem EvalFault.exists_cause {fault : EvalFault}
    (h : ∀ kind field, fault ≠ .missingField kind field) : ∃ cause, fault.cause? = some cause := by
  cases fault with
  | missingField kind field => exact absurd rfl (h kind field)
  | _ => exact ⟨_, rfl⟩

namespace Failure

def Reports (f : Failure) (cause : Cause) : Prop := ∃ d, f = .diagnostic d ∧ d.cause = cause

theorem Reports.diagnostic {f : Failure} {cause : Cause} (h : f.Reports cause) :
    ∃ d, f = .diagnostic d := by
  obtain ⟨d, hd, _⟩ := h
  exact ⟨d, hd⟩

theorem composed_reports {cs : List Char} {args : List String} {m : Nat} (cause : Cause)
    {f : Diagnostic → Diagnostic} (hf : ∀ d, (f d).cause = d.cause)
    (hs : slots? cs = some m) (hm : m ≤ args.length) :
    (ofComposed (f <$> Diagnostic.compose cause (String.ofList cs) args)).Reports cause := by
  obtain ⟨text, ht⟩ := fill_ok hs hm
  refine ⟨f (Diagnostic.plain cause text), ?_, hf _⟩
  rw [Diagnostic.compose, ht]
  rfl

theorem plain_reports {cs : List Char} {args : List String} {m : Nat} (cause : Cause)
    (hs : slots? cs = some m) (hm : m ≤ args.length) :
    (ofComposed (Diagnostic.compose cause (String.ofList cs) args)).Reports cause := by
  rw [← id_map (Diagnostic.compose cause (String.ofList cs) args)]
  exact composed_reports cause (fun _ => rfl) hs hm

theorem ofLexical_reports (f : LexicalFault) :
    (ofLexical f).Reports (.lexical f.char.toString) :=
  composed_reports _ (fun _ => rfl) rfl (Nat.le_refl 1)

theorem parse_reports_expected {cs : List Char} {kind : TokenKind} {found : Token}
    (hs : slots? (cs ++ " (expected \x7b\x7d, found \x7b\x7d)".toList) = some 2) :
    (ofComposed (Diagnostic.parse (String.ofList cs) (some kind) (some found))).Reports
      (.parse (some kind) (some found)) := by
  have enough : 2 ≤ [kind.name, found.description].length := Nat.le_refl 2
  have reports := composed_reports (.parse (some kind) (some found))
    (f := (·.placedAt found)) (fun _ => rfl) hs enough
  rwa [String.ofList_append, String.ofList_toList] at reports

theorem parse_reports_found {cs : List Char} {found : Token}
    (hs : slots? (cs ++ " (found \x7b\x7d)".toList) = some 1) :
    (ofComposed (Diagnostic.parse (String.ofList cs) none (some found))).Reports
      (.parse none (some found)) := by
  have enough : 1 ≤ [found.description].length := Nat.le_refl 1
  have reports := composed_reports (.parse none (some found))
    (f := (·.placedAt found)) (fun _ => rfl) hs enough
  rwa [String.ofList_append, String.ofList_toList] at reports

theorem ofParse_reports {c : Complaint} (hc : Native c) (found : Token) :
    (ofParse (.unexpected c found)).Reports (.parse c.expected (some found)) := by
  cases c with
  | asked _ _ => cases hc
  | primary =>
    simp only [ofParse, Complaint.expected]
    exact parse_reports_found rfl
  | _ =>
    simp only [ofParse, Complaint.expected]
    exact parse_reports_expected rfl

theorem ofName_reports (f : NameFault) : (ofName f).Reports f.cause := by
  cases f with
  | redeclared name =>
    simp only [ofName, Diagnostic.redeclaration]
    exact plain_reports _ rfl (Nat.le_refl 1)
  | constant name =>
    simp only [ofName, Diagnostic.constantAssignment]
    exact plain_reports _ rfl (Nat.le_refl 1)
  | unbound name =>
    simp only [ofName, Diagnostic.unboundName]
    exact plain_reports _ rfl (Nat.le_refl 1)

theorem ofEval_reports {f : EvalFault} {cause : Cause} (h : f.cause? = some cause) :
    (ofEval f).Reports cause := by
  cases f with
  | name fault =>
    cases h
    exact ofName_reports fault
  | invalidTarget kind =>
    cases h
    simp only [ofEval]
    exact plain_reports _ rfl (Nat.le_refl 1)
  | operandTypes operator left right =>
    cases h
    simp only [ofEval]
    exact plain_reports _ rfl (Nat.le_refl 3)
  | unknownOperator operator =>
    cases h
    simp only [ofEval]
    exact plain_reports _ rfl (Nat.le_refl 1)
  | unsupported label =>
    cases h
    simp only [ofEval, Diagnostic.unsupported]
    exact plain_reports _ rfl (Nat.le_refl 1)
  | missingField kind field => cases h

theorem message_prefix {cs rest : List Char} {args : List String} {cause : Cause}
    {d : Diagnostic} (front : List Char) (hs : cs = front ++ rest) (hf : ∀ c ∈ front, Braceless c)
    (h : ofComposed (Diagnostic.compose cause (String.ofList cs) args) = .diagnostic d) :
    ∃ behind, d.message.toList = front ++ behind := by
  rw [Diagnostic.compose] at h
  cases hr : fill (String.ofList cs) args with
  | ok text =>
    rw [hr] at h
    cases h
    exact fill_prefix hs hf hr
  | error fault =>
    rw [hr] at h
    cases h

theorem Reports.unique {f : Failure} {cause cause' : Cause} (h : f.Reports cause)
    (h' : f.Reports cause') : cause = cause' := by
  obtain ⟨d, rfl, rfl⟩ := h
  obtain ⟨_, ⟨⟩, rfl⟩ := h'
  rfl

theorem operandTypes_ne_unknownOperator (operator left right operator' : String) :
    ofEval (.operandTypes operator left right) ≠ ofEval (.unknownOperator operator') := by
  intro same
  obtain ⟨d, hd⟩ := (ofEval_reports (f := .unknownOperator operator') rfl).diagnostic
  have hd' := same.trans hd
  simp only [ofEval] at hd hd'
  obtain ⟨us, hu⟩ := message_prefix ['u', 'n', 'k'] rfl (by simp [Braceless]) hd
  obtain ⟨vs, hv⟩ := message_prefix ['u', 'n', 's'] rfl (by simp [Braceless]) hd'
  rw [hu] at hv
  cases hv

end Failure

end LetLang
