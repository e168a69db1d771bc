import LetLang.Diagnostic.Excerpt
import LetLang.Diagnostic.Failure

namespace LetLang

inductive ExitStatus where
  | success
  | code (n : Int)
  | message (text : String)
  deriving DecidableEq, Repr

inductive Signal where
  | failure (f : Failure)
  | exit (status : ExitStatus)
  | interrupt
  | exhausted

inductive Ending where
  | suppressed
  | exited (status : ExitStatus)
  | raised (name : String)
  deriving DecidableEq, Repr

structure Registered where
  path : String
  source : String
  deriving DecidableEq, Repr

structure Reporter where
  fatal : Bool
  painter : Painter
  registered : Option Registered

namespace Reporter

def register (r : Reporter) (path source : String) : Reporter :=
  { r with registered := some ⟨path, source⟩ }

def coordinate (n : Option Int) : String :=
  match n with
  | some n => toString n
  | none => "None"

def location (r : Reporter) (d : Diagnostic) : String :=
  match r.registered, d.line with
  | some source, some line =>
    r.painter.paint .bold
      (source.path ++ ":" ++ toString line ++ ":" ++ coordinate d.col ++ ": ")
  | _, _ => ""

def heading (r : Reporter) (d : Diagnostic) : String :=
  r.location d ++
    (if d.internal then r.painter.paint .alarm "[internal] " else "") ++
    r.painter.paint .alarm (d.cause.label ++ ": ") ++ d.message

def line? (r : Reporter) (d : Diagnostic) : Option (List Char) := do
  sourceLine (← r.registered).source.toList (← d.line)

def excerpt? (r : Reporter) (d : Diagnostic) : Option String :=
  if d.internal || !d.excerpted then none
  else do return Excerpt.text r.painter (← r.line? d) (← d.col) d.length

def report (r : Reporter) (d : Diagnostic) : String :=
  r.heading d ++ "\n" ++
    match r.excerpt? d with
    | some excerpt => excerpt ++ "\n"
    | none => ""

def internal (d : Defect) : Diagnostic :=
  { Diagnostic.plain .general ("unknown error: '" ++ d.name ++ ": " ++ d.text ++ "'") with
    internal := true }

def handle (r : Reporter) (s : Signal) : String × Ending :=
  match s with
  | .exit status => ("", .exited status)
  | .interrupt => told (Diagnostic.plain .general "keyboard interrupt") .suppressed
  | .exhausted =>
    told (Diagnostic.plain .general "maximum recursion depth exceeded while evaluating expression")
      .suppressed
  | .failure (.diagnostic d) => told d .suppressed
  | .failure (.defect d) => told (internal d) (.raised d.name)
where
  told (d : Diagnostic) (otherwise : Ending) : String × Ending :=
    (r.report d, if r.fatal then .exited (.code 1) else otherwise)

end Reporter

end LetLang
