import LetLang.CommandLine
import Std.Time.Zoned

open LetLang

namespace LetLang.Main

def stored (path : String) : IO Stored :=
  try
    return .file (← IO.FS.readBinFile path).toList
  catch _ =>
    return .missing

def padded (width : Nat) (n : Int) : String :=
  let digits := toString n
  String.ofList (List.replicate (width - digits.length) '0') ++ digits

def timeStamp : IO String := do
  let now ← Std.Time.PlainDateTime.now
  let date := padded 4 now.year.toInt ++ "-" ++ padded 2 now.month.val ++ "-" ++
    padded 2 now.day.val
  let time := padded 2 now.hour.val ++ ":" ++ padded 2 now.minute.val ++ ":" ++
    padded 2 now.second.val
  return date ++ " " ++ time ++ "," ++ padded 3 (now.nanosecond.val / 1000000)

def writeLog (log : List Event) : IO Unit := do
  for event in log do
    IO.eprintln ((← timeStamp) ++ " - " ++ event.record)

partial def talk (verbose : Bool) (session : Session) : IO Ending := do
  let output ← IO.getStdout
  output.putStr Shell.prompt
  output.flush
  let typed ← (← IO.getStdin).getLine
  let line := if typed.isEmpty then Shell.Command.endOfInput.name else typed
  let reply := Shell.respond session line
  if verbose then writeLog reply.log
  output.putStr reply.out
  output.flush
  if reply.stop then return reply.ending else talk verbose reply.session

def finish (f : CommandLine.Finish) : IO UInt32 := do
  writeLog f.log
  IO.print f.out
  IO.eprint f.complaint
  return UInt32.ofNat f.exit.toNat

end LetLang.Main

open LetLang.Main in
def main (arguments : List String) : IO UInt32 := do
  match CommandLine.request arguments with
  | .start none verbose =>
    match Session.start ⟨true, .plain, none⟩ Session.typedPath true fun _ => .missing with
    | (_, .ok session) =>
      if verbose then writeLog Session.openingLog
      IO.println Shell.intro
      let ending ← talk verbose session
      return UInt32.ofNat (CommandLine.exitCode ending).toNat
    | (reporter, .error failure) => finish (.failed reporter failure [])
  | .start (some path) _ =>
    let content ← stored path
    finish (CommandLine.run arguments .plain (fun _ => content) "")
  | _ => finish (CommandLine.run arguments .plain (fun _ => .missing) "")
