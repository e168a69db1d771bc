import LetLang.Proofs.Diagnostic.Reports

namespace LetLang
open Grammar

inductive Cause.Alike : Cause → Cause → Prop where
  | same (cause : Cause) : Alike cause cause
  | found (expected : Option TokenKind) {t t' : Token} (kind : t.kind = t'.kind)
      (text : t.text = t'.text) : Alike (.parse expected (some t)) (.parse expected (some t'))

structure Diagnostic.Alike (d d' : Diagnostic) : Prop where
  cause : d.cause.Alike d'.cause
  message : d.message = d'.message
  length : d.length = d'.length

theorem Diagnostic.Alike.refl (d : Diagnostic) : d.Alike d := ⟨.same d.cause, rfl, rfl⟩

theorem Token.description_eq {t t' : Token} (kind : t.kind = t'.kind) (text : t.text = t'.text) :
    t.description = t'.description := by
  rw [description, description, kind, text]

namespace Failure

def Alike (f f' : Failure) : Prop :=
  ∃ d d', f = .diagnostic d ∧ f' = .diagnostic d' ∧ d.Alike d'

theorem composed_alike {cause cause' : Cause} {template : String} {args : List String}
    {f f' : Diagnostic → Diagnostic} {reported : Cause}
    (h : (ofComposed (f <$> Diagnostic.compose cause template args)).Reports reported)
    (ha : ∀ message, (f (.plain cause message)).Alike (f' (.plain cause' message))) :
    (ofComposed (f <$> Diagnostic.compose cause template args)).Alike
      (ofComposed (f' <$> Diagnostic.compose cause' template args)) := by
  obtain ⟨d, hd, _⟩ := h
  rw [Diagnostic.compose] at hd
  rw [Diagnostic.compose, Diagnostic.compose]
  cases filled : Template.fill template args with
  | ok message => exact ⟨_, _, rfl, rfl, ha message⟩
  | error fault =>
    rw [filled] at hd
    cases hd

theorem ofLexical_alike (c : Char) (p q : Position) :
    (ofLexical ⟨c, p⟩).Alike (ofLexical ⟨c, q⟩) := by
  apply composed_alike (ofLexical_reports ⟨c, p⟩)
  intro message
  exact ⟨.same _, rfl, rfl⟩

theorem ofParse_alike {c : Complaint} (hc : Native c) {t t' : Token} (kind : t.kind = t'.kind)
    (text : t.text = t'.text) :
    (ofParse (.unexpected c t)).Alike (ofParse (.unexpected c t')) := by
  have reports := ofParse_reports hc t
  have placed : ∀ (expected : Option TokenKind) (message : String),
      (Diagnostic.placedAt (.plain (.parse expected (some t)) message) t).Alike
        (Diagnostic.placedAt (.plain (.parse expected (some t')) message) t') := by
    intro expected message
    refine ⟨.found expected kind text, rfl, ?_⟩
    simp only [Diagnostic.placedAt, Diagnostic.placed, text]
  rw [ofParse, Diagnostic.parse.eq_def] at reports ⊢
  rw [ofParse, Diagnostic.parse.eq_def]
  cases hc : c.expected with
  | none =>
    rw [hc] at reports
    simp only [← Token.description_eq kind text]
    exact composed_alike reports (placed none)
  | some expected =>
    rw [hc] at reports
    simp only [← Token.description_eq kind text]
    exact composed_alike reports (placed (some expected))

end Failure

end LetLang
