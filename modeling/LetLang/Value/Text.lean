import LetLang.Number.Text
import LetLang.Text.Quoted
import LetLang.Value

namespace LetLang

namespace Number

def plainText (x : Number) : String :=
  match x.whole? with
  | some n => String.ofList (signText (decide (n < 0)) ++ Digits.text n.natAbs)
  | none => x.text

end Number

namespace Value

mutual

def text : Value → String
  | null => "null"
  | number x => x.plainText
  | boolean b => if b then "true" else "false"
  | object [] => "\x7b\x7d"
  | object ((k, v) :: rest) => "\x7b " ++ (k ++ ": " ++ text v) ++ fieldsText rest ++ " \x7d"

def fieldsText : List (String × Value) → String
  | [] => ""
  | (k, v) :: rest => ", " ++ (k ++ ": " ++ text v) ++ fieldsText rest

end

mutual

def detail : Value → String
  | null => "NullVal(value=None)"
  | number x => "NumberVal(value=" ++ x.text ++ ")"
  | boolean b => "BoolVal(value=" ++ (if b then "True" else "False") ++ ")"
  | object [] => "ObjectVal(properties=())"
  | object [(k, v)] => "ObjectVal(properties=((" ++ quoted k ++ ", " ++ detail v ++ "),))"
  | object ((k, v) :: rest) =>
    "ObjectVal(properties=((" ++ quoted k ++ ", " ++ detail v ++ ")" ++ fieldsDetail rest ++ "))"

def fieldsDetail : List (String × Value) → String
  | [] => ""
  | (k, v) :: rest => ", (" ++ quoted k ++ ", " ++ detail v ++ ")" ++ fieldsDetail rest

end

end Value

end LetLang
