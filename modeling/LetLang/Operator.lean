import LetLang.Number.Arithmetic

namespace LetLang.Operator

def operation? (operator : String) : Option (Number → Number → Number) :=
  if operator = "+" then some Number.add
  else if operator = "-" then some Number.sub
  else if operator = "*" then some Number.mul
  else if operator = "/" then some Number.div
  else if operator = "%" then some Number.mod
  else none

end LetLang.Operator
