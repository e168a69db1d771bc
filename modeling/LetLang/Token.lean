namespace LetLang

inductive TokenKind where
  | number
  | identifier
  | letWord
  | constWord
  | equals
  | plus
  | minus
  | star
  | slash
  | percent
  | openParen
  | closeParen
  | openBrace
  | closeBrace
  | comma
  | colon
  | semicolon
  | endOfInput
  deriving DecidableEq, Repr

namespace TokenKind

def all : List TokenKind :=
  [number, identifier, letWord, constWord, equals, plus, minus, star, slash, percent, openParen,
   closeParen, openBrace, closeBrace, comma, colon, semicolon, endOfInput]

def name : TokenKind → String
  | number => "NUMBER"
  | identifier => "IDENTIFIER"
  | letWord => "LET"
  | constWord => "CONST"
  | equals => "EQUALS"
  | plus => "PLUS"
  | minus => "MINUS"
  | star => "STAR"
  | slash => "SLASH"
  | percent => "PERCENT"
  | openParen => "OPEN_PAREN"
  | closeParen => "CLOSE_PAREN"
  | openBrace => "OPEN_BRACE"
  | closeBrace => "CLOSE_BRACE"
  | comma => "COMMA"
  | colon => "COLON"
  | semicolon => "SEMICOLON"
  | endOfInput => "EOF"

def ofName? (name : String) : Option TokenKind := all.find? (·.name == name)

end TokenKind

structure Position where
  line : Int
  col : Int
  deriving DecidableEq, Repr

namespace Position

def start : Position := ⟨1, 1⟩

def after (p : Position) (c : Char) : Position :=
  if c = '\n' then ⟨p.line + 1, 1⟩ else ⟨p.line, p.col + 1⟩

def afterAll (p : Position) (cs : List Char) : Position := cs.foldl after p

@[simp] theorem afterAll_nil (p : Position) : p.afterAll [] = p := rfl

@[simp] theorem afterAll_cons (p : Position) (c : Char) (cs : List Char) :
    p.afterAll (c :: cs) = (p.after c).afterAll cs := rfl

theorem afterAll_append (p : Position) (cs ds : List Char) :
    p.afterAll (cs ++ ds) = (p.afterAll cs).afterAll ds := by
  simp [afterAll]

end Position

structure Token where
  kind : TokenKind
  text : String
  position : Position
  deriving DecidableEq, Repr

namespace Token

def description (t : Token) : String :=
  if t.text.isEmpty then t.kind.name else t.kind.name ++ " '" ++ t.text ++ "'"

def summary (t : Token) : String := "Token(" ++ t.kind.name ++ ", '" ++ t.text ++ "')"

end Token

end LetLang
