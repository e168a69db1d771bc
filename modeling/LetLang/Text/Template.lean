import LetLang.Text.Numeric

namespace LetLang.Template

inductive Fault where
  | loneOpening
  | loneClosing
  | unclosedSlot
  | nestedSlot
  | numberedThenPlain
  | plainThenNumbered
  | tooManyDigits
  | missingArgument (index : Nat)
  | unknownName (name : String)
  deriving DecidableEq, Repr

inductive Numbering where
  | undecided
  | plain (next : Nat)
  | numbered

def greatestNumber : Nat := Nat.pow 2 63 - 1

def numberFrom (n : Nat) : List Char → Except Fault (Option Nat)
  | [] => .ok (some n)
  | c :: rest =>
    match decimalDigit? c with
    | none => .ok none
    | some d =>
      if 10 * n + d ≤ greatestNumber then numberFrom (10 * n + d) rest else .error .tooManyDigits

def argument (args : List String) (numbering : Numbering) (name : List Char) :
    Except Fault (String × Numbering) :=
  let take (index : Nat) (after : Numbering) : Except Fault (String × Numbering) :=
    match args[index]? with
    | some arg => .ok (arg, after)
    | none => .error (.missingArgument index)
  match name, numbering with
  | [], .undecided => take 0 (.plain 1)
  | [], .plain next => take next (.plain (next + 1))
  | [], .numbered => .error .numberedThenPlain
  | name, numbering =>
    match numberFrom 0 name, numbering with
    | .error fault, _ => .error fault
    | .ok none, _ => .error (.unknownName (String.ofList name))
    | .ok (some _), .plain _ => .error .plainThenNumbered
    | .ok (some index), _ => take index .numbered

def fillFrom (args : List String) :
    Numbering → (slot : Option (List Char)) → List Char → Except Fault (List Char)
  | _, none, [] => .ok []
  | _, none, ['{'] => .error .loneOpening
  | numbering, none, '{' :: '{' :: rest => ('{' :: ·) <$> fillFrom args numbering none rest
  | numbering, none, '{' :: rest => fillFrom args numbering (some []) rest
  | numbering, none, '}' :: '}' :: rest => ('}' :: ·) <$> fillFrom args numbering none rest
  | _, none, '}' :: _ => .error .loneClosing
  | numbering, none, c :: rest => (c :: ·) <$> fillFrom args numbering none rest
  | _, some _, [] => .error .unclosedSlot
  | _, some _, '{' :: _ => .error .nestedSlot
  | numbering, some name, '}' :: rest =>
    match argument args numbering name.reverse with
    | .ok (arg, after) => (arg.toList ++ ·) <$> fillFrom args after none rest
    | .error fault => .error fault
  | numbering, some name, c :: rest => fillFrom args numbering (some (c :: name)) rest

def fill (template : String) (args : List String) : Except Fault String :=
  String.ofList <$> fillFrom args .undecided none template.toList

end LetLang.Template
