import LetLang.Number.Text
import LetLang.Text.Quoted
import LetLang.Tree

namespace LetLang

structure Row where
  depth : Nat
  text : String
  deriving DecidableEq, Repr

namespace Row

def indented (r : Row) : String := String.ofList (List.replicate (4 * r.depth) ' ') ++ r.text

end Row

namespace Node

def openingRow (start : Row) (kind : Kind) : Row :=
  { start with text := start.text ++ kind.label ++ "(" }

def closingRow (level : Int) (after : String) : Row := ⟨level.toNat, ")" ++ after⟩

def fieldStart (level : Int) (field : String) : Row := ⟨level.toNat + 1, field ++ "="⟩

def fieldRow (level : Int) (field text : String) : Row :=
  ⟨level.toNat + 1, field ++ "=" ++ text ++ ","⟩

def itemStart (level : Int) : Row := ⟨level.toNat, ""⟩

def flagText (b : Bool) : String := if b then "True" else "False"

mutual

def rows (level : Int) (start : Row) (after : String) : Node → List Row
  | program body =>
    openingRow start .program :: (listRows level "body" body ++ [closingRow level after])
  | declaration name value constant =>
    openingRow start .declaration :: fieldRow level "identifier" (quoted name) ::
      (optionRows level value ++
        [fieldRow level "constant" (flagText constant), closingRow level after])
  | assignment target value =>
    openingRow start .assignment ::
      (rows (level + 1) (fieldStart level "assignee") "," target ++
        rows (level + 1) (fieldStart level "value") "," value ++ [closingRow level after])
  | binary left right operator =>
    openingRow start .binary ::
      (rows (level + 1) (fieldStart level "left") "," left ++
        rows (level + 1) (fieldStart level "right") "," right ++
        [fieldRow level "operator" (quoted operator), closingRow level after])
  | identifier name =>
    [openingRow start .identifier, fieldRow level "symbol" (quoted name), closingRow level after]
  | number value =>
    [openingRow start .number, fieldRow level "value" value.text, closingRow level after]
  | property key value =>
    openingRow start .property :: fieldRow level "key" (quoted key) ::
      (optionRows level value ++ [closingRow level after])
  | object properties =>
    openingRow start .object ::
      (listRows level "properties" properties ++ [closingRow level after])

def optionRows (level : Int) : Option Node → List Row
  | none => [fieldRow level "value" "None"]
  | some n => rows (level + 1) (fieldStart level "value") "," n

def listRows (level : Int) (field : String) : List Node → List Row
  | [] => [fieldRow level field "[]"]
  | n :: ns =>
    ⟨level.toNat + 1, field ++ "=["⟩ ::
      (rows (level + 2) (itemStart (level + 2)) "," n ++ itemRows (level + 2) ns ++
        [⟨level.toNat + 1, "],"⟩])

def itemRows (level : Int) : List Node → List Row
  | [] => []
  | n :: ns => rows level (itemStart level) "," n ++ itemRows level ns

end

def display (n : Node) (level : Int) : String :=
  String.intercalate "\n" ((n.rows level (itemStart level) "").map Row.indented)

end Node

end LetLang
