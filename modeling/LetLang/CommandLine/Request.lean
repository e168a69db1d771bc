import LetLang.CommandLine.Argument

namespace LetLang

namespace CommandLine

structure Progress where
  file : Option String
  fileOpen : Bool
  justGiven : Bool
  verbose : Bool
  surplus : List String

inductive Request where
  | help
  | misuse (fault : UsageFault)
  | start (file : Option String) (verbose : Bool)
  deriving DecidableEq, Repr

def Progress.switch (p : Progress) : List Switch → Option Progress
  | [] => some { p with justGiven := false }
  | .help :: _ => none
  | .verbose :: rest => { p with verbose := true }.switch rest

def Progress.read (p : Progress) : List Argument → Request
  | [] => if p.surplus.isEmpty then .start p.file p.verbose else .misuse (.unrecognized p.surplus)
  | .plain text :: rest =>
    if p.fileOpen then
      { p with file := some text, fileOpen := false, justGiven := true }.read rest
    else { p with justGiven := false, surplus := p.surplus ++ [text] }.read rest
  | .separator :: rest =>
    if p.fileOpen || p.justGiven then { p with justGiven := false }.read rest
    else { p with surplus := p.surplus ++ ["--"] }.read rest
  | .unknown text :: rest =>
    { p with justGiven := false, surplus := p.surplus ++ [text] }.read rest
  | .valued switch value :: _ => .misuse (.needless switch value)
  | .switch first letters :: rest =>
    match cluster first letters with
    | .error fault => .misuse fault
    | .ok switches =>
      match p.switch switches with
      | some p => p.read rest
      | none => .help

def request (arguments : List String) : Request :=
  match classifyAll arguments with
  | .error fault => .misuse fault
  | .ok forms => (⟨none, true, false, false, []⟩ : Progress).read forms

end CommandLine

end LetLang
