import LetLang.Diagnostic.Reporter

namespace LetLang

inductive Stored where
  | missing
  | directory
  | file (bytes : List UInt8)

structure Session where
  environment : Environment
  results : List Value
  path : String
  source : Option String
  reporter : Reporter

structure Run (α : Type) where
  session : Session
  result : Except Failure α
  log : List Event

namespace Session

def typedPath : String := "<in>"

def openingLog : List Event :=
  Scope.global.bindings.map fun b => .declared b.name b.value b.constant

def load (path : String) (stored : Stored) : Except Failure String :=
  if '\x00' ∈ path.toList then .error (.defect .nulInPath)
  else
    match stored with
    | .file bytes =>
      match Utf8.decode bytes with
      | .ok text => .ok (String.ofList (Lines.unify text.toList))
      | .error fault => .error (.defect (.undecodable fault))
    | _ =>
      .error (.ofComposed ((fun d => { d with excerpted := false }) <$>
        Diagnostic.compose .general "'\x7b\x7d' could not be opened" [path]))

def start (reporter : Reporter) (path : String) (commandLine : Bool) (read : String → Stored) :
    Reporter × Except Failure Session :=
  let reporter := if commandLine then { reporter with fatal := false } else reporter
  let session (source : Option String) : Session := ⟨.global, [], path, source, reporter⟩
  (reporter,
    if path = typedPath then
      if commandLine then .ok (session none)
      else .error (.general "'<in>' is a reserved filename" [])
    else (fun text => session (some text)) <$> load path (read path))

theorem start_typed (reporter : Reporter) (read : String → Stored) :
    start reporter typedPath true read =
      ({ reporter with fatal := false },
        .ok ⟨.global, [], typedPath, none, { reporter with fatal := false }⟩) :=
  rfl

def parse (s : Session) (source : String) : Run (List Node) :=
  let s := { s with reporter := s.reporter.register s.path source }
  match Token.scan source with
  | .error fault => ⟨s, .error (.ofLexical fault), []⟩
  | .ok tokens =>
    match Parser.body tokens with
    | .error fault => ⟨s, .error (.ofParse fault), []⟩
    | .ok body => ⟨s, .ok body, [.parsed tokens.length body.length]⟩

theorem parse_session (s : Session) (source : String) : (s.parse source).session =
    { s with reporter := s.reporter.register s.path source } := by
  unfold parse
  split
  · rfl
  · split
    · rfl
    · rfl

def execute (s : Session) (body : List Node) : Run Value :=
  let o := evaluate Dispatch.standard (.program body) s.environment
  let s := { s with environment := o.environment }
  let log := .running body.length s.path :: o.log
  match o.result with
  | .ok v => ⟨{ s with results := s.results ++ [v] }, .ok v, log⟩
  | .error fault => ⟨s, .error (.ofEval fault), log⟩

def runSource (s : Session) (source : String) : Run Value :=
  let parsed := s.parse source
  match parsed.result with
  | .error failure => ⟨parsed.session, .error failure, parsed.log⟩
  | .ok body =>
    let executed := parsed.session.execute body
    { executed with log := parsed.log ++ executed.log }

def run (s : Session) (source : Option String) : Run Value :=
  match source <|> s.source with
  | some source => s.runSource source
  | none => ⟨s, .error (.general "no source to run in command-line mode" []), []⟩

def pop (s : Session) : Run Value :=
  match s.results with
  | [] => ⟨s, .error (.defect .noResult), []⟩
  | v :: rest => ⟨{ s with results := rest }, .ok v, []⟩

def bindings (s : Session) : List Binding := s.environment.innermost.bindings

end Session

end LetLang
