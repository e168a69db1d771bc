import LetLang.Token

namespace LetLang

inductive Complaint where
  | declaredName
  | constantValue
  | declarationEquals
  | declarationEnd
  | closingParen
  | primary
  | openingBrace
  | propertyKey
  | propertyColon
  | propertyEnd
  | closingBrace
  | asked (expected : TokenKind) (template : String)
  deriving DecidableEq, Repr

namespace Complaint

def expected : Complaint → Option TokenKind
  | declaredName => some .identifier
  | constantValue => some .equals
  | declarationEquals => some .equals
  | declarationEnd => some .semicolon
  | closingParen => some .closeParen
  | primary => none
  | openingBrace => some .openBrace
  | propertyKey => some .identifier
  | propertyColon => some .colon
  | propertyEnd => some .comma
  | closingBrace => some .closeBrace
  | asked expected _ => some expected

def template : Complaint → String
  | declaredName => "expected identifier name following let | const"
  | constantValue => "constant declaration must be initialized"
  | declarationEquals => "expected equals token following identifier in variable declaration"
  | declarationEnd => "variable declaration must end with a semicolon"
  | closingParen => "expected closing parenthesis after parenthesized expression"
  | primary => "unexpected token found during parsing"
  | openingBrace => "expected opening brace of object literal"
  | propertyKey => "object literal key expected"
  | propertyColon => "missing colon following identifier in object literal"
  | propertyEnd => "expected comma or closing brace following property"
  | closingBrace => "object literal missing closing brace"
  | asked _ template => template

end Complaint

inductive ParseFault where
  | unterminated
  | unexpected (complaint : Complaint) (found : Token)
  | unreadable (numeral : String)
  deriving DecidableEq, Repr

end LetLang
