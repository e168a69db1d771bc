import LetLang.Diagnostic
import LetLang.Evaluation
import LetLang.Number.Numeral
import LetLang.Text.Quoted
import LetLang.Text.Utf8
import LetLang.Token.Lexer
import LetLang.Tree.Parser

namespace LetLang

inductive Defect where
  | template (fault : Template.Fault)
  | unreadable (numeral : String)
  | noResult
  | unhandled (kinds : List Kind)
  | missingField (kind : Kind) (field : String)
  | undecodable (fault : Utf8.Fault)
  | nulInPath
  | foreign (name text : String)
  deriving DecidableEq, Repr

namespace Template.Fault

def name : Fault → String
  | missingArgument _ => "IndexError"
  | unknownName _ => "KeyError"
  | _ => "ValueError"

def text : Fault → String
  | loneOpening => "Single '\x7b' encountered in format string"
  | loneClosing => "Single '\x7d' encountered in format string"
  | unclosedSlot => "expected '\x7d' before end of string"
  | nestedSlot => "unexpected '\x7b' in field name"
  | numberedThenPlain =>
    "cannot switch from manual field specification to automatic field numbering"
  | plainThenNumbered =>
    "cannot switch from automatic field numbering to manual field specification"
  | tooManyDigits => "Too many decimal digits in format string"
  | missingArgument index =>
    "Replacement index " ++ toString index ++ " out of range for positional args tuple"
  | unknownName name => quoted name

end Template.Fault

namespace Utf8

def Reason.text : Reason → String
  | badStart => "invalid start byte"
  | badContinuation => "invalid continuation byte"
  | endOfData => "unexpected end of data"

def Fault.text (f : Fault) : String :=
  "'utf-8' codec can't decode " ++
    (if f.length = 1 then
      "byte 0x" ++ String.ofList (Quoted.hex 2 f.first.toNat) ++ " in position "
        ++ toString f.position
    else
      "bytes in position " ++ toString f.position ++ "-"
        ++ toString (f.position + f.length - 1)) ++
    ": " ++ f.reason.text

end Utf8

namespace Defect

def name : Defect → String
  | template fault => fault.name
  | unreadable _ => "ValueError"
  | noResult => "IndexError"
  | unhandled _ => "TypeError"
  | missingField _ _ => "AttributeError"
  | undecodable _ => "UnicodeDecodeError"
  | nulInPath => "ValueError"
  | foreign name _ => name

def text : Defect → String
  | template fault => fault.text
  | unreadable numeral => "could not convert string to float: " ++ quoted numeral
  | noResult => "pop from empty list"
  | unhandled kinds =>
    "no evaluator defined for AST node type(s): " ++ String.intercalate ", " (kinds.map Kind.label)
  | missingField kind field => "'" ++ kind.label ++ "' object has no attribute '" ++ field ++ "'"
  | undecodable fault => fault.text
  | nulInPath => "embedded null byte"
  | foreign _ text => text

end Defect

inductive Failure where
  | diagnostic (d : Diagnostic)
  | defect (d : Defect)
  deriving DecidableEq, Repr

namespace Failure

def ofComposed : Except Template.Fault Diagnostic → Failure
  | .ok d => diagnostic d
  | .error fault => defect (.template fault)

def general (template : String) (args : List String) : Failure :=
  ofComposed (Diagnostic.compose .general template args)

def ofLexical (f : LexicalFault) : Failure :=
  ofComposed (Diagnostic.lexical f.char.toString (some f.position.line) (some f.position.col))

def ofParse : ParseFault → Failure
  | .unterminated =>
    ofComposed (Diagnostic.parse "token sequence is not terminated by EOF" none none)
  | .unexpected complaint found =>
    ofComposed (Diagnostic.parse complaint.template complaint.expected (some found))
  | .unreadable numeral => defect (.unreadable numeral)

def ofName : NameFault → Failure
  | .redeclared name => ofComposed (Diagnostic.redeclaration name)
  | .constant name => ofComposed (Diagnostic.constantAssignment name)
  | .unbound name => ofComposed (Diagnostic.unboundName name)

def ofEval : EvalFault → Failure
  | .name fault => ofName fault
  | .invalidTarget kind =>
    ofComposed (Diagnostic.compose (.evaluation (some .assignment))
      "invalid assignment target '\x7b\x7d'" [kind.label])
  | .operandTypes operator left right =>
    ofComposed (Diagnostic.compose (.evaluation (some .binary))
      "unsupported operand types for '\x7b\x7d': '\x7b\x7d' and '\x7b\x7d'" [operator, left, right])
  | .unknownOperator operator =>
    ofComposed (Diagnostic.compose (.evaluation (some .binary))
      "unknown binary operator '\x7b\x7d'" [operator])
  | .unsupported label => ofComposed (Diagnostic.unsupported label)
  | .missingField kind field => defect (.missingField kind field)

end Failure

end LetLang
