import LetLang.Session
import LetLang.Text.Blank
import LetLang.Tree.Display

namespace LetLang

namespace Shell

inductive Command where
  | exit
  | endOfInput
  | environment
  | help
  | tree (source : String)
  deriving DecidableEq, Repr

namespace Command

def name : Command → String
  | exit => "exit"
  | endOfInput => "EOF"
  | environment => "env"
  | help => "help"
  | tree _ => "ast"

def argument : Command → String
  | tree source => source
  | _ => ""

def treeSource? : List Char → Option (List Char)
  | [':', 'a', 's', 't'] => some []
  | ':' :: 'a' :: 's' :: 't' :: ' ' :: rest => some (trimBoth isBlank rest)
  | _ => none

def ofLine? (line : String) : Option Command :=
  if line = "exit" then some exit
  else if line = "EOF" then some endOfInput
  else if line = "env" then some environment
  else if line = "help" ∨ line = "?" then some help
  else (treeSource? line.toList).map fun source => tree (String.ofList source)

end Command

def intro : String :=
  "tinylang interpreter :: Python backend\n" ++
  "Type '?' or 'help' for more information, 'exit' to quit."

def prompt : String := "> "

def helpText : String :=
  "Welcome to the tinylang interpreter!\n\n" ++
  "tinylang evaluates arithmetic over numbers, with variables and object literals.\n" ++
  "Try it out by typing 'let x = 5;'. This will declare a variable 'x'. Next, try\n" ++
  "typing 'x * (2 + 1)', giving 15 as the result. 'const' declares a variable that\n" ++
  "cannot be reassigned, and '\x7b x, y: 2 \x7d' builds an object.\n\n" ++
  "Commands: ':ast SOURCE' shows a syntax tree, 'env' lists variables, 'exit' quits.\n" ++
  "A command must be the whole line: anything else is run as source.\n"

def bindingText (b : Binding) : String :=
  (if b.constant then "const " else "let ") ++ b.name ++ " = " ++ b.value.text ++ "\n"

structure Reply where
  session : Session
  out : String
  stop : Bool
  log : List Event
  ending : Ending

def guarded {α : Type} (r : Run α) (textOf : α → String) : Reply :=
  match r.result with
  | .ok a => ⟨r.session, textOf a, false, r.log, .suppressed⟩
  | .error failure =>
    let (out, ending) := r.session.reporter.handle (.failure failure)
    ⟨r.session, out, ending ≠ .suppressed, r.log, ending⟩

def runLine (s : Session) (source : String) : Reply :=
  let r := s.run (some source)
  match r.result with
  | .ok _ => guarded { r with session := r.session.pop.session } (·.text ++ "\n")
  | .error _ => guarded r (·.text ++ "\n")

def perform (s : Session) : Command → Reply
  | .exit => ⟨s, "", true, [], .suppressed⟩
  | .endOfInput => ⟨s, "\n", true, [], .suppressed⟩
  | .environment => ⟨s, String.join (s.bindings.map bindingText), false, [], .suppressed⟩
  | .help => ⟨s, helpText, false, [], .suppressed⟩
  | .tree source => guarded (s.parse source) fun body => (Node.program body).display 0 ++ "\n"

def respond (s : Session) (line : String) : Reply :=
  let line := strip line
  match Command.ofLine? line with
  | some command => perform s command
  | none => if line.isEmpty then ⟨s, "", false, [], .suppressed⟩ else runLine s line

def converse (s : Session) : List String → Reply
  | [] =>
    let reply := respond s Command.endOfInput.name
    { reply with out := prompt ++ reply.out }
  | line :: rest =>
    let reply := respond s line
    if reply.stop then { reply with out := prompt ++ reply.out }
    else
      let later := converse reply.session rest
      { later with out := prompt ++ reply.out ++ later.out, log := reply.log ++ later.log }

def greet (s : Session) (greeting : String) (lines : List String) : Reply :=
  let reply := converse s lines
  if greeting.isEmpty then reply else { reply with out := greeting ++ "\n" ++ reply.out }

def inputLines (input : String) : List String :=
  let lines := Lines.split input.toList
  let lines := if lines.getLast? = some [] then lines.dropLast else lines
  lines.map String.ofList

end Shell

end LetLang
