import LetLang.Environment
import LetLang.Log
import LetLang.Operator

namespace LetLang

inductive EvalFault where
  | name (fault : NameFault)
  | invalidTarget (kind : Kind)
  | operandTypes (operator left right : String)
  | unknownOperator (operator : String)
  | unsupported (label : String)
  | missingField (kind : Kind) (field : String)
  deriving DecidableEq, Repr

structure Outcome (α : Type) where
  result : Except EvalFault α
  environment : Environment
  log : List Event

def Evaluation (α : Type) : Type := Environment → Outcome α

namespace Evaluation

variable {α β : Type}

protected def pure (a : α) : Evaluation α := fun e => ⟨.ok a, e, []⟩

protected def bind (m : Evaluation α) (f : α → Evaluation β) : Evaluation β := fun e =>
  let o := m e
  match o.result with
  | .ok a =>
    let o' := f a o.environment
    { o' with log := o.log ++ o'.log }
  | .error fault => ⟨.error fault, o.environment, o.log⟩

instance : Monad Evaluation where
  pure := Evaluation.pure
  bind := Evaluation.bind

def fail (fault : EvalFault) : Evaluation α := fun e => ⟨.error fault, e, []⟩

def emit (event : Event) : Evaluation Unit := fun e => ⟨.ok (), e, [event]⟩

def lookup (name : String) : Evaluation Value := fun e =>
  ⟨(e.lookup name).mapError .name, e, []⟩

def declare (name : String) (value : Value) (constant : Bool) : Evaluation Value := fun e =>
  match e.declare name value constant with
  | .ok e' => ⟨.ok value, e', [.declared name value constant]⟩
  | .error fault => ⟨.error (.name fault), e, []⟩

def assign (name : String) (value : Value) : Evaluation Value := fun e =>
  match e.assign name value with
  | .ok e' => ⟨.ok value, e', []⟩
  | .error fault => ⟨.error (.name fault), e, []⟩

def operate (operator : String) : Value → Value → Evaluation Value
  | .number x, .number y =>
    match Operator.operation? operator with
    | some f => pure (.number (f x y))
    | none => fail (.unknownOperator operator)
  | left, right => fail (.operandTypes operator left.typeName right.typeName)

end Evaluation

structure Dispatch where
  evaluated : List Kind
  embedded : List Kind

namespace Dispatch

def standard : Dispatch where
  evaluated := [.program, .declaration, .assignment, .binary, .identifier, .number, .object]
  embedded := [.property]

def without (d : Dispatch) (kinds : List Kind) : Dispatch where
  evaluated := d.evaluated.filter (· ∉ kinds)
  embedded := d.embedded.filter (· ∉ kinds)

def missing (d : Dispatch) : List Kind :=
  Kind.all.filter fun kind => kind ∉ d.evaluated ∧ kind ∉ d.embedded

theorem missing_standard : standard.missing = [] := by decide

def arm (d : Dispatch) (kind : Kind) (m : Evaluation Value) : Evaluation Value :=
  if kind ∈ d.evaluated then do
    let v ← m
    Evaluation.emit (.evaluated kind v)
    return v
  else Evaluation.fail (.unsupported kind.label)

end Dispatch

open Evaluation in
mutual

def evaluate (d : Dispatch) : Node → Evaluation Value
  | .program body => d.arm .program (evaluateAll d .null body)
  | .declaration name none constant => d.arm .declaration (declare name .null constant)
  | .declaration name (some value) constant => d.arm .declaration do
    declare name (← evaluate d value) constant
  | .assignment (.identifier name) value => d.arm .assignment do
    assign name (← evaluate d value)
  | .assignment target _ => d.arm .assignment (fail (.invalidTarget target.kind))
  | .binary left right operator => d.arm .binary do
    let x ← evaluate d left
    let y ← evaluate d right
    operate operator x y
  | .identifier name => d.arm .identifier (lookup name)
  | .number x => d.arm .number (pure (.number x))
  | .property _ _ => fail (.unsupported Kind.property.label)
  | .object properties => d.arm .object do
    return .object (Fields.ofList (← evaluateFields d [] properties))

def evaluateAll (d : Dispatch) (last : Value) : List Node → Evaluation Value
  | [] => pure last
  | n :: ns => do evaluateAll d (← evaluate d n) ns

def evaluateFields (d : Dispatch) (fields : Fields) : List Node → Evaluation Fields
  | [] => pure fields
  | n :: ns => do
    let (key, value) ← evaluateEntry d n
    evaluateFields d (fields.put key value) ns

def evaluateEntry (d : Dispatch) : Node → Evaluation (String × Value)
  | .property key none => do return (key, ← lookup key)
  | .property key (some value) => do return (key, ← evaluate d value)
  | .declaration _ none _ => fail (.missingField .declaration "key")
  | .declaration _ (some value) _ => do
    let _ ← evaluate d value
    fail (.missingField .declaration "key")
  | .assignment _ value => do
    let _ ← evaluate d value
    fail (.missingField .assignment "key")
  | .number _ => fail (.unsupported "float")
  | n => fail (.missingField n.kind "value")

end

end LetLang
