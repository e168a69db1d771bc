import LetLang.Proofs.Session.Reads
import Mathlib.Data.List.Forall2

namespace LetLang

theorem flatten_ne_nil {α : Type} {bodies : List (List α)} {last : List α}
    (h : bodies.getLast? = some last) (hl : last ≠ []) : bodies.flatten ≠ [] := by
  obtain ⟨front, rfl⟩ := List.getLast?_eq_some_iff.mp h
  simp [hl]

namespace Session

def runEach (s : Session) : List String → Run Value
  | [] => ⟨s, .ok .null, []⟩
  | [source] => s.run (some source)
  | source :: next :: rest =>
    let first := s.run (some source)
    match first.result with
    | .error failure => ⟨first.session, .error failure, first.log⟩
    | .ok _ =>
      let others := first.session.runEach (next :: rest)
      { others with log := first.log ++ others.log }

theorem runEach_of_error {s : Session} {source : String} {failure : Failure} (rest : List String)
    (h : (s.run (some source)).result = .error failure) :
    (s.runEach (source :: rest)).result = .error failure ∧
      (s.runEach (source :: rest)).session = (s.run (some source)).session := by
  cases rest with
  | nil => exact ⟨h, rfl⟩
  | cons next rest => simp only [runEach, h, and_self]

theorem runEach_of_ok {s : Session} {source : String} {v : Value} (next : String)
    (rest : List String) (h : (s.run (some source)).result = .ok v) :
    (s.runEach (source :: next :: rest)).result =
        ((s.run (some source)).session.runEach (next :: rest)).result ∧
      (s.runEach (source :: next :: rest)).session =
        ((s.run (some source)).session.runEach (next :: rest)).session := by
  simp only [runEach, h, and_self]

theorem runEach_does {pieces : List String} {bodies : List (List Node)}
    (h : List.Forall₂ Reads pieces bodies) {last : List Node}
    (hlast : bodies.getLast? = some last) (hl : last ≠ []) (s : Session) :
    Does (s.runEach pieces)
      (evaluateAll Dispatch.standard .null bodies.flatten s.environment) := by
  induction h generalizing s with
  | nil => cases hlast
  | @cons source body rest others hr hs ih =>
    obtain ⟨hresult, henv⟩ := run_of_reads hr s
    rw [List.flatten_cons, evaluateAll_append]
    cases hb : (evaluateAll Dispatch.standard .null body s.environment).result with
    | error fault =>
      rw [hb] at hresult
      obtain ⟨hres, hses⟩ := runEach_of_error rest hresult
      rw [Evaluation.bind_of_error hb]
      exact ⟨hres, by rw [hses, henv]⟩
    | ok v =>
      rw [hb] at hresult
      cases hs with
      | nil =>
        obtain rfl := Option.some.inj hlast
        rw [Evaluation.bind_of_ok hb, List.flatten_nil, evaluateAll_nil]
        exact ⟨hresult, henv⟩
      | @cons next body' rest others hn hs =>
        obtain ⟨hres, hses⟩ := runEach_of_ok next rest hresult
        have behind : (body' :: others).getLast? = some last := hlast
        obtain ⟨hr', he'⟩ := ih behind (s.run (some source)).session
        rw [henv] at hr' he'
        rw [Evaluation.bind_of_ok hb]
        rw [evaluateAll_last .standard (flatten_ne_nil behind hl) v .null]
        exact ⟨hres.trans hr', (congrArg _ hses).trans he'⟩

end Session

theorem reads_joined {pieces : List String} {bodies : List (List Node)}
    (h : List.Forall₂ Reads pieces bodies) (hp : pieces ≠ []) :
    Reads (String.intercalate "\n" pieces) bodies.flatten := by
  induction h with
  | nil => exact absurd rfl hp
  | @cons source body rest others hr hs ih =>
    cases hs with
    | nil => simpa using hr
    | @cons next body' rest others hn hs =>
      rw [String.intercalate_cons_cons]
      exact hr.joined (ih nofun)

theorem run_joined {pieces : List String} {bodies : List (List Node)}
    (h : List.Forall₂ Reads pieces bodies) {last : List Node}
    (hlast : bodies.getLast? = some last) (hl : last ≠ []) :
    Reads (String.intercalate "\n" pieces) bodies.flatten ∧
    ∀ s : Session,
      (s.run (some (String.intercalate "\n" pieces))).result = (s.runEach pieces).result ∧
      (s.run (some (String.intercalate "\n" pieces))).session.environment =
        (s.runEach pieces).session.environment := by
  have hp : pieces ≠ [] := by
    rintro rfl
    cases h
    cases hlast
  have joined := reads_joined h hp
  refine ⟨joined, fun s => ?_⟩
  obtain ⟨hr, he⟩ := Session.run_of_reads joined s
  obtain ⟨hr', he'⟩ := Session.runEach_does h hlast hl s
  exact ⟨hr.trans hr'.symm, he.trans he'.symm⟩

theorem run_joined_declaration :
    List.Forall₂ Reads ["let x;", "x"] [[.declaration "x" none false], [.identifier "x"]] ∧
    Reads "let x;\nx" [.declaration "x" none false, .identifier "x"] ∧
    ∀ s : Session, (s.run (some "let x;\nx")).result = (s.runEach ["let x;", "x"]).result := by
  have first : Reads "let x;" [.declaration "x" none false] := by
    refine reads_iff.mpr ⟨[⟨.letWord, "let", ⟨1, 1⟩⟩, ⟨.identifier, "x", ⟨1, 5⟩⟩,
      ⟨.semicolon, ";", ⟨1, 6⟩⟩], ⟨1, 7⟩, ?_, .cons (.declaration (.empty rfl rfl rfl)) .nil⟩
    rw [show "let x;".toList = ['l', 'e', 't', ' ', 'x', ';'] from String.toList_ofList]
    refine Token.Scans.lexeme (l := ⟨.letWord, ['l', 'e', 't'], [' ', 'x', ';']⟩) (by decide) rfl ?_
    refine Token.Scans.space (by decide) ?_
    refine Token.Scans.lexeme (l := ⟨.identifier, ['x'], [';']⟩) (by decide) rfl ?_
    exact Token.Scans.lexeme (l := ⟨.semicolon, [';'], []⟩) (by decide) rfl .nil
  have second : Reads "x" [.identifier "x"] := by
    refine reads_iff.mpr ⟨[⟨.identifier, "x", ⟨1, 1⟩⟩], ⟨1, 2⟩, ?_,
      .cons (.expression (.sum (.product (.primary (.identifier rfl))))) .nil⟩
    rw [show "x".toList = ['x'] from String.toList_ofList]
    exact Token.Scans.lexeme (l := ⟨.identifier, ['x'], []⟩) (by decide) rfl .nil
  have pieces : List.Forall₂ Reads ["let x;", "x"]
      [[.declaration "x" none false], [.identifier "x"]] := .cons first (.cons second .nil)
  obtain ⟨whole, same⟩ := run_joined pieces rfl nofun
  exact ⟨pieces, whole, fun s => (same s).1⟩

end LetLang
