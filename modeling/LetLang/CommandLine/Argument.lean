import LetLang.Text.Numeric
import LetLang.Text.Quoted

namespace LetLang

namespace CommandLine

inductive Switch where
  | help
  | verbose
  deriving DecidableEq, Repr

namespace Switch

def all : List Switch := [help, verbose]

def letter : Switch → Char
  | help => 'h'
  | verbose => 'v'

def word : Switch → String
  | help => "--help"
  | verbose => "--verbose"

def ofLetter? (c : Char) : Option Switch := all.find? (·.letter == c)

def spellings (s : Switch) : String := "-" ++ s.letter.toString ++ "/" ++ s.word

end Switch

inductive UsageFault where
  | ambiguous (argument : String) (words : List String)
  | needless (switch : Switch) (value : String)
  | unrecognized (arguments : List String)
  deriving DecidableEq, Repr

def UsageFault.message : UsageFault → String
  | ambiguous argument words =>
    "ambiguous option: " ++ argument ++ " could match " ++ String.intercalate ", " words
  | needless switch value =>
    "argument " ++ switch.spellings ++ ": ignored explicit argument " ++ quoted value
  | unrecognized arguments => "unrecognized arguments: " ++ String.intercalate " " arguments

inductive Argument where
  | plain (text : String)
  | separator
  | switch (first : Switch) (letters : List Char)
  | valued (switch : Switch) (value : String)
  | unknown (text : String)
  deriving DecidableEq, Repr

def isNegativeNumber (cs : List Char) : Bool :=
  match cs with
  | '-' :: rest =>
    let rest := if rest.getLast? = some '\n' then rest.dropLast else rest
    let digits (cs : List Char) : Bool := !cs.isEmpty && cs.all fun c => (decimalDigit? c).isSome
    digits rest || match rest.dropWhile fun c => (decimalDigit? c).isSome with
      | '.' :: fraction => digits fraction
      | _ => false
  | _ => false

def unmatched (argument : String) : Argument :=
  let cs := argument.toList
  if isNegativeNumber cs ∨ ' ' ∈ cs then .plain argument else .unknown argument

def splitValue (cs : List Char) : List Char × Option String :=
  match cs.dropWhile (· ≠ '=') with
  | [] => (cs, none)
  | _ :: value => (cs.takeWhile (· ≠ '='), some (String.ofList value))

def classify (argument : String) : Except UsageFault Argument :=
  match argument.toList with
  | ['-', '-'] => .ok .separator
  | '-' :: '-' :: rest =>
    let (start, value) := splitValue ('-' :: '-' :: rest)
    match Switch.all.filter fun s => start.isPrefixOf s.word.toList with
    | [] => .ok (unmatched argument)
    | [switch] =>
      match value with
      | none => .ok (.switch switch [])
      | some value => .ok (.valued switch value)
    | switches => .error (.ambiguous argument (switches.map Switch.word))
  | '-' :: c :: rest =>
    match Switch.ofLetter? c with
    | some switch =>
      match rest with
      | ['='] => .ok (.valued switch "")
      | '=' :: letters => .ok (.switch switch letters)
      | letters => .ok (.switch switch letters)
    | none => .ok (unmatched argument)
  | _ => .ok (.plain argument)

def classifyAll : List String → Except UsageFault (List Argument)
  | [] => .ok []
  | argument :: rest =>
    match classify argument with
    | .error fault => .error fault
    | .ok .separator => .ok (.separator :: rest.map .plain)
    | .ok form => (form :: ·) <$> classifyAll rest

def cluster (first : Switch) : List Char → Except UsageFault (List Switch)
  | [] => .ok [first]
  | c :: rest =>
    match Switch.ofLetter? c with
    | some next => (first :: ·) <$> cluster next rest
    | none => .error (.needless first (String.ofList (c :: rest)))

end CommandLine

end LetLang
