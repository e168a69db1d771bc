import LetLang.Text.Template
import LetLang.Token
import LetLang.Tree

namespace LetLang

inductive Cause where
  | general
  | lexical (char : String)
  | parse (expected : Option TokenKind) (found : Option Token)
  | evaluation (node : Option Kind)
  | unsupported (label : String)
  | binding (name : String)
  | redeclaration (name : String)
  | constantAssignment (name : String)
  | unboundName (name : String)
  deriving DecidableEq, Repr

namespace Cause

def classes : Cause → List String
  | general => ["LangError"]
  | lexical _ => ["LangError", "LexError"]
  | parse _ _ => ["LangError", "ParseError"]
  | evaluation _ => ["LangError", "EvaluationError"]
  | unsupported _ => ["LangError", "UnsupportedNodeError"]
  | binding _ => ["LangError", "BindingError"]
  | redeclaration _ => ["LangError", "BindingError", "RedeclarationError"]
  | constantAssignment _ => ["LangError", "BindingError", "ConstantAssignmentError"]
  | unboundName _ => ["LangError", "BindingError", "UnboundNameError"]

def label (c : Cause) : String := c.classes.getLastD ""

end Cause

structure Diagnostic where
  cause : Cause
  message : String
  line : Option Int
  col : Option Int
  length : Nat
  length_pos : 0 < length
  excerpted : Bool
  internal : Bool
  deriving DecidableEq, Repr

namespace Diagnostic

def plain (cause : Cause) (message : String) : Diagnostic where
  cause := cause
  message := message
  line := none
  col := none
  length := 1
  length_pos := by decide
  excerpted := true
  internal := false

def placed (d : Diagnostic) (line col : Option Int) (length : Int) : Diagnostic :=
  { d with line, col, length := max length.toNat 1, length_pos := by omega }

def placedAt (d : Diagnostic) (t : Token) : Diagnostic :=
  d.placed (some t.position.line) (some t.position.col) t.text.length

def compose (cause : Cause) (template : String) (args : List String) :
    Except Template.Fault Diagnostic :=
  plain cause <$> Template.fill template args

def lexical (char : String) (line col : Option Int) : Except Template.Fault Diagnostic :=
  (·.placed line col 1) <$> compose (.lexical char) "unrecognized character '\x7b\x7d'" [char]

def parse (template : String) (expected : Option TokenKind) (found : Option Token) :
    Except Template.Fault Diagnostic :=
  let cause := Cause.parse expected found
  match expected, found with
  | _, none => compose cause template []
  | none, some t =>
    (·.placedAt t) <$> compose cause (template ++ " (found \x7b\x7d)") [t.description]
  | some kind, some t =>
    (·.placedAt t) <$>
      compose cause (template ++ " (expected \x7b\x7d, found \x7b\x7d)") [kind.name, t.description]

def unsupported (label : String) : Except Template.Fault Diagnostic :=
  compose (.unsupported label) "AST node '\x7b\x7d' has not been set up for interpretation" [label]

def redeclaration (name : String) : Except Template.Fault Diagnostic :=
  compose (.redeclaration name)
    "cannot declare '\x7b\x7d': it is already defined in this scope" [name]

def constantAssignment (name : String) : Except Template.Fault Diagnostic :=
  compose (.constantAssignment name)
    "cannot reassign '\x7b\x7d': it was declared constant" [name]

def unboundName (name : String) : Except Template.Fault Diagnostic :=
  compose (.unboundName name) "'\x7b\x7d' is not defined" [name]

end Diagnostic

end LetLang
