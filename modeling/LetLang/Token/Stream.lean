import LetLang.Token

namespace LetLang

structure TokenStream where
  tokens : List Token
  terminator : Token
  deriving DecidableEq, Repr

namespace TokenStream

def isEnd (t : Token) : Bool := t.kind == .endOfInput

def ofTokens? (tokens : List Token) : Option TokenStream :=
  match tokens.getLast?, tokens.find? isEnd with
  | some last, some terminator =>
    if isEnd last then some ⟨tokens.takeWhile (!isEnd ·), terminator⟩ else none
  | _, _ => none

def current (s : TokenStream) : Token := s.tokens.head?.getD s.terminator

def atEnd (s : TokenStream) : Bool := s.tokens.isEmpty

def eat (s : TokenStream) : Token × TokenStream := (s.current, { s with tokens := s.tokens.tail })

end TokenStream

end LetLang
