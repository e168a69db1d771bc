import LetLang.Number.Basic

namespace LetLang

inductive Node where
  | program (body : List Node)
  | declaration (name : String) (value : Option Node) (constant : Bool)
  | assignment (target value : Node)
  | binary (left right : Node) (operator : String)
  | identifier (name : String)
  | number (value : Number)
  | property (key : String) (value : Option Node)
  | object (properties : List Node)

inductive Kind where
  | assignment
  | binary
  | identifier
  | number
  | property
  | object
  | program
  | declaration
  deriving DecidableEq, Repr

namespace Kind

def all : List Kind :=
  [assignment, binary, identifier, number, property, object, program, declaration]

def label : Kind → String
  | assignment => "AssignmentExpr"
  | binary => "BinaryExpr"
  | identifier => "Identifier"
  | number => "NumericLiteral"
  | property => "Property"
  | object => "ObjectLiteral"
  | program => "Program"
  | declaration => "VarDeclaration"

def ofLabel? (label : String) : Option Kind := all.find? (·.label == label)

end Kind

namespace Node

def kind : Node → Kind
  | program _ => .program
  | declaration _ _ _ => .declaration
  | assignment _ _ => .assignment
  | binary _ _ _ => .binary
  | identifier _ => .identifier
  | number _ => .number
  | property _ _ => .property
  | object _ => .object

theorem induct {P : Node → Prop}
    (program : ∀ body, (∀ n ∈ body, P n) → P (program body))
    (declaration : ∀ name value constant, (∀ n ∈ value, P n) → P (declaration name value constant))
    (assignment : ∀ target value, P target → P value → P (assignment target value))
    (binary : ∀ left right operator, P left → P right → P (binary left right operator))
    (identifier : ∀ name, P (identifier name))
    (number : ∀ value, P (number value))
    (property : ∀ key value, (∀ n ∈ value, P n) → P (property key value))
    (object : ∀ properties, (∀ n ∈ properties, P n) → P (object properties))
    (n : Node) : P n :=
  Node.rec (motive_1 := P) (motive_2 := fun ns => ∀ n ∈ ns, P n)
    (motive_3 := fun value => ∀ n ∈ value, P n)
    program declaration assignment binary identifier number property object
    (by simp) (fun _ _ h hs => List.forall_mem_cons.mpr ⟨h, hs⟩)
    (by simp) (fun _ h => by simpa using h) n

mutual

def same : Node → Node → Bool
  | program body, program body' => sameAll body body'
  | declaration name value constant, declaration name' value' constant' =>
    name == name' && sameOption value value' && constant == constant'
  | assignment target value, assignment target' value' => same target target' && same value value'
  | binary left right operator, binary left' right' operator' =>
    same left left' && same right right' && operator == operator'
  | identifier name, identifier name' => name == name'
  | number value, number value' => value.sameValue value'
  | property key value, property key' value' => key == key' && sameOption value value'
  | object properties, object properties' => sameAll properties properties'
  | _, _ => false

def sameOption : Option Node → Option Node → Bool
  | none, none => true
  | some n, some n' => same n n'
  | _, _ => false

def sameAll : List Node → List Node → Bool
  | [], [] => true
  | n :: ns, n' :: ns' => same n n' && sameAll ns ns'
  | _, _ => false

end

end Node

end LetLang
