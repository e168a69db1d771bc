import LetLang.Proofs.Diagnostic.Likeness
import LetLang.Proofs.Lexing.LineEnds
import LetLang.Proofs.Session.Failures

namespace LetLang
open Token LetLang.Parser Grammar

def Lines.unified (text : String) : String := String.ofList (unify text.toList)

theorem Session.load_unified {path : String} (hp : '\x00' ∉ path.toList) {bytes : List UInt8}
    {text : String} (h : Utf8.decode bytes = .ok text) :
    load path (.file bytes) = .ok (Lines.unified text) := by
  rw [load, if_neg hp, h]
  rfl

def Token.unplaced (t : Token) : Token := { t with position := .start }

theorem Token.moves_unplaced : Moves unplaced := ⟨fun _ => rfl, fun _ => rfl⟩

theorem Token.Alike.unplaced {S : Position → Position → Prop} {t t' : Token} (h : Alike S t t') :
    t.unplaced = t'.unplaced := by
  rw [Token.unplaced, Token.unplaced, h.kind, h.text]

theorem unplaced_eq {S : Position → Position → Prop} {ts ts' : List Token}
    (h : List.Forall₂ (Alike S) ts ts') : ts.map unplaced = ts'.map unplaced := by
  induction h with
  | nil => rfl
  | cons head _ ih => rw [List.map_cons, List.map_cons, head.unplaced, ih]

theorem Grammar.body_moved {f : Token → Token} (hf : Moves f) {source : String}
    {tokens : List Token} (h : scan source = .ok tokens) :
    body (tokens.map f) = (body tokens).mapError (ParseFault.moved f) := by
  obtain ⟨ts, q, scans, rfl⟩ := exists_scans h
  have inner : Inner (ts.map f) := by
    intro t ht
    obtain ⟨u, hu, rfl⟩ := List.mem_map.mp ht
    rw [hf.kind]
    exact scans.inner u hu
  have last : (f ⟨.endOfInput, "", q⟩).kind = .endOfInput := hf.kind _
  rw [List.map_append, List.map_singleton, body_eq inner last (terminated_concat _ last),
    body_eq scans.inner rfl (terminated_concat ts rfl), statements_moved hf, Reading.moved]
  dsimp only
  cases (statements ⟨.endOfInput, "", q⟩ ts).reading.1 with
  | ok ns => rfl
  | error fault => rfl

theorem Grammar.body_error {source : String} {tokens : List Token} {fault : ParseFault}
    (hs : scan source = .ok tokens) (hb : body tokens = .error fault) :
    ∃ c found, fault = .unexpected c found ∧ Native c := by
  obtain ⟨c, found, hf, native, _⟩ := program_error_found (scan_terminated hs) (scan_numbers hs)
    (program_eq_error_iff.mpr hb)
  exact ⟨c, found, hf, native⟩

theorem Grammar.body_alike {S : Position → Position → Prop} {source source' : String}
    {ts ts' : List Token} (hs : scan source = .ok ts) (hs' : scan source' = .ok ts')
    (h : List.Forall₂ (Alike S) ts ts') :
    (∃ ns, body ts = .ok ns ∧ body ts' = .ok ns) ∨
    ∃ c t t', body ts = .error (.unexpected c t) ∧ body ts' = .error (.unexpected c t') ∧
      Native c ∧ t.kind = t'.kind ∧ t.text = t'.text := by
  have same : (body ts).mapError (ParseFault.moved unplaced) =
      (body ts').mapError (ParseFault.moved unplaced) := by
    rw [← body_moved moves_unplaced hs, ← body_moved moves_unplaced hs', unplaced_eq h]
  cases hb : body ts with
  | ok ns =>
    cases hb' : body ts' with
    | ok ns' =>
      rw [hb, hb'] at same
      obtain rfl : ns = ns' := Except.ok.inj same
      exact .inl ⟨ns, rfl, rfl⟩
    | error fault' =>
      rw [hb, hb'] at same
      cases same
  | error fault =>
    cases hb' : body ts' with
    | ok ns' =>
      rw [hb, hb'] at same
      cases same
    | error fault' =>
      obtain ⟨c, t, rfl, native⟩ := body_error hs hb
      obtain ⟨c', t', rfl, _⟩ := body_error hs' hb'
      rw [hb, hb'] at same
      obtain ⟨rfl, placeless⟩ := ParseFault.unexpected.inj (Except.error.inj same)
      obtain ⟨kind, text, _⟩ := Token.mk.inj placeless
      exact .inr ⟨c, t, t', rfl, rfl, native, kind, text⟩

namespace Session

inductive EndsAlike : Except Failure Value → Except Failure Value → Prop where
  | value (v : Value) : EndsAlike (.ok v) (.ok v)
  | failure {f f' : Failure} (h : f.Alike f') : EndsAlike (.error f) (.error f')

variable {s s' : Session} {r r' : String}

theorem parse_alike (hr : ScansAlike (fun _ _ => True) (scan r) (scan r')) :
    (s.parse r).result = (s'.parse r').result ∨
      ∃ f f', (s.parse r).result = .error f ∧ (s'.parse r').result = .error f' ∧ f.Alike f' := by
  generalize hs : scan r = scanned at hr
  generalize hs' : scan r' = scanned' at hr
  cases hr with
  | @fault c p q _ =>
    exact .inr ⟨_, _, parse_of_scan_error hs s, parse_of_scan_error hs' s',
      Failure.ofLexical_alike c p q⟩
  | @tokens ts ts' ht =>
    rcases body_alike hs hs' ht with ⟨ns, hb, hb'⟩ | ⟨c, t, t', hb, hb', native, kind, text⟩
    · have parsed := (parse_of_reads ⟨ts, hs, hb⟩ s).1
      have parsed' := (parse_of_reads ⟨ts', hs', hb'⟩ s').1
      exact .inl (parsed.trans parsed'.symm)
    · exact .inr ⟨_, _, parse_of_body_error hs hb s, parse_of_body_error hs' hb' s',
        Failure.ofParse_alike native kind text⟩

theorem run_of_parse (he : s.environment = s'.environment)
    (h : (s.parse r).result = (s'.parse r').result) :
    (s.run (some r)).result = (s'.run (some r')).result ∧
      (s.run (some r)).session.environment = (s'.run (some r')).session.environment := by
  cases hp : (s'.parse r').result with
  | error failure =>
    obtain ⟨result, environment⟩ := run_unread (h.trans hp)
    obtain ⟨result', environment'⟩ := run_unread hp
    rw [result, result', environment, environment', he]
    exact ⟨rfl, rfl⟩
  | ok body =>
    obtain ⟨result, environment⟩ := run_of_reads (reads_of_parse (h.trans hp)) s
    obtain ⟨result', environment'⟩ := run_of_reads (reads_of_parse hp) s'
    rw [result, result', environment, environment', he]
    exact ⟨rfl, rfl⟩

theorem endsAlike_refl (s : Session) (r : String) :
    EndsAlike (s.run (some r)).result (s.run (some r)).result := by
  rcases (s.run_concludes r).cases with ⟨v, hv⟩ | ⟨d, hd, _⟩
  · rw [hv]
    exact .value v
  · rw [hd]
    exact .failure ⟨d, d, rfl, rfl, .refl d⟩

theorem run_alike (he : s.environment = s'.environment)
    (hr : ScansAlike (fun _ _ => True) (scan r) (scan r')) :
    (s.run (some r)).session.environment = (s'.run (some r')).session.environment ∧
      EndsAlike (s.run (some r)).result (s'.run (some r')).result := by
  rcases parse_alike hr with same | ⟨f, f', failed, failed', alike⟩
  · obtain ⟨result, environment⟩ := run_of_parse he same
    exact ⟨environment, result ▸ endsAlike_refl s r⟩
  · obtain ⟨result, environment⟩ := run_unread failed
    obtain ⟨result', environment'⟩ := run_unread failed'
    rw [result, result', environment, environment']
    exact ⟨he, .failure alike⟩

end Session

theorem run_unified {s s' : Session} (he : s.environment = s'.environment) (r : String) :
    (s.run (some r)).session.environment =
      (s'.run (some (Lines.unified r))).session.environment ∧
    Session.EndsAlike (s.run (some r)).result (s'.run (some (Lines.unified r))).result ∧
    (Lines.Paired r.toList →
      (s.run (some r)).result = (s'.run (some (Lines.unified r))).result) ∧
    ∀ path bytes, '\x00' ∉ path.toList → Utf8.decode bytes = .ok r →
      Session.load path (.file bytes) = .ok (Lines.unified r) := by
  have chars : (Lines.unified r).toList = Lines.unify r.toList := String.toList_ofList
  have scans : ScansAlike (fun _ _ => True) (scan r) (scan (Lines.unified r)) := by
    rw [scan, scan, chars]
    exact scanFrom_unify _ _ _
  obtain ⟨environment, ends⟩ := Session.run_alike he scans
  refine ⟨environment, ends, ?_, ?_⟩
  · intro paired
    have same : scan r = scan (Lines.unified r) := by
      rw [scan, scan, chars]
      exact scanFrom_unify_paired paired _
    exact (Session.run_of_parse he (Session.parse_of_scan_eq same s s').1).1
  · intro path bytes named decoded
    exact Session.load_unified named decoded

def fileSession : Session := ⟨.global, [], "f", some "\n $", ⟨true, .plain, none⟩⟩

theorem fileSession_run :
    Session.start ⟨true, .plain, none⟩ "f" false (fun _ => .file [13, 10, 32, 36]) =
      (⟨true, .plain, none⟩, .ok fileSession) ∧
    Session.load "f" (.file [13, 10, 32, 36]) = .ok (Lines.unified "\r\n $") ∧
    Lines.Paired "\r\n $".toList ∧
    (freshSession.run (some "\r\n $")).result = .error (.ofLexical ⟨'$', ⟨2, 2⟩⟩) ∧
    (fileSession.run none).result = .error (.ofLexical ⟨'$', ⟨2, 2⟩⟩) := by
  have started : Session.start ⟨true, .plain, none⟩ "f" false (fun _ => .file [13, 10, 32, 36]) =
      (⟨true, .plain, none⟩, .ok fileSession) := rfl
  have paired : Lines.Paired "\r\n $".toList := by decide
  have decoded : Utf8.decode [13, 10, 32, 36] = .ok "\r\n $" := rfl
  have refused : scan "\r\n $" = .error ⟨'$', ⟨2, 2⟩⟩ := by with_unfolding_all rfl
  have unified : Lines.unified "\r\n $" = "\n $" := rfl
  have failed : (freshSession.run (some "\r\n $")).result = .error (.ofLexical ⟨'$', ⟨2, 2⟩⟩) :=
    (Session.run_unread (Session.parse_of_scan_error refused freshSession)).1
  have bindings : freshSession.environment = fileSession.environment := rfl
  have stored : (none <|> fileSession.source) = some "\n $" := rfl
  obtain ⟨_, _, same, loads⟩ := run_unified bindings "\r\n $"
  refine ⟨started, loads "f" _ (by decide) decoded, paired, failed, ?_⟩
  rw [Session.run_eq_run_some stored, ← unified, ← same paired]
  exact failed

end LetLang
