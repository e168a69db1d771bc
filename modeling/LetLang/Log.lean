import LetLang.Tree
import LetLang.Value.Text

namespace LetLang

inductive Event where
  | parsed (tokens statements : Nat)
  | running (statements : Nat) (path : String)
  | declared (name : String) (value : Value) (constant : Bool)
  | evaluated (kind : Kind) (value : Value)

namespace Event

def logger : Event → String
  | parsed _ _ => "tinylang.frontend.parser"
  | running _ _ => "tinylang.lang.session"
  | declared _ _ _ => "tinylang.runtime.environment"
  | evaluated _ _ => "tinylang.runtime.interpreter"

def message : Event → String
  | parsed tokens statements =>
    "parsed " ++ toString tokens ++ " token(s) into " ++ toString statements ++ " statement(s)"
  | running statements path =>
    "running " ++ toString statements ++ " statement(s) from " ++ path
  | declared name value constant =>
    "declared " ++ (if constant then "constant " else "") ++ "'" ++ name ++ "' = " ++ value.text
  | evaluated kind value => "evaluated " ++ kind.label ++ " -> " ++ value.detail

def record (e : Event) : String := e.logger ++ " - DEBUG - " ++ e.message

end Event

namespace Severity

def named : List (String × Nat) :=
  [("NOTSET", 0), ("DEBUG", 10), ("INFO", 20), ("WARN", 30), ("WARNING", 30), ("ERROR", 40),
   ("CRITICAL", 50), ("FATAL", 50)]

def standard : Nat := 30

def capital (c : Char) : Char :=
  if c = 'ı' then 'I' else if c = 'ſ' then 'S' else c.toUpper

def ofName (name : String) : Nat := (named.lookup (name.map capital)).getD standard

end Severity

end LetLang
