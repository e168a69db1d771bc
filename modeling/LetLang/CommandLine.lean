import LetLang.CommandLine.Request
import LetLang.Shell

namespace LetLang

namespace CommandLine

def usage : String := "usage: tinylang [-h] [-v] [file]\n"

def helpText : String :=
  usage ++ "\n" ++
  "tinylang interpreter\n\n" ++
  "positional arguments:\n" ++
  "  file           file to interpret and run (if empty, goes to command-line\n" ++
  "                 mode)\n\n" ++
  "options:\n" ++
  "  -h, --help     show this help message and exit\n" ++
  "  -v, --verbose  log pipeline activity at DEBUG level\n"

structure Finish where
  out : String
  complaint : String
  log : List Event
  exit : Int

def Finish.misuse (fault : UsageFault) : Finish :=
  ⟨"", usage ++ "tinylang: error: " ++ fault.message ++ "\n", [], 2⟩

def exitCode : Ending → Int
  | .suppressed => 0
  | .exited .success => 0
  | .exited (.code n) => n
  | .exited (.message _) => 1
  | .raised _ => 1

def Finish.failed (reporter : Reporter) (failure : Failure) (log : List Event) : Finish :=
  let (out, ending) := reporter.handle (.failure failure)
  ⟨out, "", log, exitCode ending⟩

def runFile (reporter : Reporter) (path : String) (read : String → Stored) : Finish :=
  match Session.start reporter path false read with
  | (reporter, .error failure) => .failed reporter failure Session.openingLog
  | (_, .ok session) =>
    let r := session.run none
    let log := Session.openingLog ++ r.log
    match r.result with
    | .ok v => ⟨v.text ++ "\n", "", log, 0⟩
    | .error failure => .failed r.session.reporter failure log

def runShell (reporter : Reporter) (read : String → Stored) (input : String) : Finish :=
  match Session.start reporter Session.typedPath true read with
  | (reporter, .error failure) => .failed reporter failure Session.openingLog
  | (_, .ok session) =>
    let reply := Shell.greet session Shell.intro (Shell.inputLines input)
    ⟨reply.out, "", Session.openingLog ++ reply.log, exitCode reply.ending⟩

def run (arguments : List String) (painter : Painter) (read : String → Stored) (input : String) :
    Finish :=
  let reporter : Reporter := ⟨true, painter, none⟩
  match request arguments with
  | .help => ⟨helpText, "", [], 0⟩
  | .misuse fault => .misuse fault
  | .start file verbose =>
    let finish := match file with
      | some path => runFile reporter path read
      | none => runShell reporter read input
    if verbose then finish else { finish with log := [] }

end CommandLine

end LetLang
