import LetLang.Number.Numeral
import LetLang.Token.Stream
import LetLang.Tree
import LetLang.Tree.ParseFault

namespace LetLang

namespace Parser

inductive Step (α : Type) (limit : Nat) where
  | done (value : α) (rest : List Token) (shorter : rest.length < limit)
  | failed (fault : ParseFault) (rest : List Token)

namespace Step

variable {α β : Type} {m n : Nat}

def andThen (s : Step α n)
    (next : (value : α) → (rest : List Token) → rest.length < n → Step β m) : Step β m :=
  match s with
  | done value rest shorter => next value rest shorter
  | failed fault rest => failed fault rest

def map (f : α → β) (s : Step α n) : Step β n :=
  s.andThen fun value rest shorter => done (f value) rest shorter

def weaken (s : Step α n) (h : n ≤ m) : Step α m :=
  s.andThen fun value rest shorter => done value rest (Nat.lt_of_lt_of_le shorter h)

end Step

def isAdditive (kind : TokenKind) : Bool := kind == .plus || kind == .minus

def isMultiplicative (kind : TokenKind) : Bool :=
  kind == .star || kind == .slash || kind == .percent

def expect (terminator : Token) (complaint : Complaint) :
    (tokens : List Token) → Step Token tokens.length
  | [] => .failed (.unexpected complaint terminator) []
  | t :: rest =>
    if complaint.expected = some t.kind then .done t rest (by simp)
    else .failed (.unexpected complaint t) (t :: rest)

mutual

def primary (terminator : Token) : (tokens : List Token) → Step Node tokens.length
  | [] => .failed (.unexpected .primary terminator) []
  | t :: rest =>
    match t.kind with
    | .identifier => .done (.identifier t.text) rest (by simp)
    | .number =>
      match Number.ofText? t.text with
      | some x => .done (.number x) rest (by simp)
      | none => .failed (.unreadable t.text) rest
    | .openParen =>
      (expression terminator rest).andThen fun value rest₁ h₁ =>
        (expect terminator .closingParen rest₁).andThen fun _ rest₂ h₂ =>
          .done value rest₂ (by simp; omega)
    | .openBrace =>
      ((properties terminator rest).map Node.object).weaken (by simp)
    | _ => .failed (.unexpected .primary t) (t :: rest)
termination_by tokens => (tokens.length, 0)

def properties (terminator : Token) : (tokens : List Token) → Step (List Node) tokens.length
  | [] => .failed (.unexpected .closingBrace terminator) []
  | t :: rest =>
    if t.kind = .closeBrace then .done [] rest (by simp)
    else
      (property terminator (t :: rest)).andThen fun first rest₁ h₁ =>
        match rest₁, h₁ with
        | [], _ => .failed (.unexpected .propertyEnd terminator) []
        | t₁ :: rest₂, h₁ =>
          if t₁.kind = .closeBrace then .done [first] rest₂ (by simp at h₁ ⊢; omega)
          else if t₁.kind = .comma then
            have : rest₂.length < (t :: rest).length := Nat.lt_of_succ_lt h₁
            ((properties terminator rest₂).map (first :: ·)).weaken (by simp at h₁ ⊢; omega)
          else .failed (.unexpected .propertyEnd t₁) (t₁ :: rest₂)
termination_by tokens => (tokens.length, 1)

def property (terminator : Token) (tokens : List Token) : Step Node tokens.length :=
  (expect terminator .propertyKey tokens).andThen fun key rest₁ h₁ =>
    match rest₁, h₁ with
    | [], _ => .failed (.unexpected .propertyColon terminator) []
    | t₁ :: rest₂, h₁ =>
      if t₁.kind = .comma ∨ t₁.kind = .closeBrace then
        .done (.property key.text none) (t₁ :: rest₂) h₁
      else if t₁.kind = .colon then
        have : rest₂.length < tokens.length := Nat.lt_of_succ_lt h₁
        ((expression terminator rest₂).map fun value => .property key.text (some value)).weaken
          (by simp at h₁; omega)
      else .failed (.unexpected .propertyColon t₁) (t₁ :: rest₂)
termination_by (tokens.length, 0)

def product (terminator : Token) (tokens : List Token) : Step Node tokens.length :=
  (primary terminator tokens).andThen fun left rest h =>
    (productTail terminator left rest).weaken h
termination_by (tokens.length, 1)

def productTail (terminator : Token) (left : Node) :
    (tokens : List Token) → Step Node (tokens.length + 1)
  | [] => .done left [] (by simp)
  | t :: rest =>
    if isMultiplicative t.kind then
      (primary terminator rest).andThen fun right rest₁ h₁ =>
        (productTail terminator (.binary left right t.text) rest₁).weaken (by simp; omega)
    else .done left (t :: rest) (by simp)
termination_by tokens => (tokens.length, 0)

def sum (terminator : Token) (tokens : List Token) : Step Node tokens.length :=
  (product terminator tokens).andThen fun left rest h =>
    (sumTail terminator left rest).weaken h
termination_by (tokens.length, 2)

def sumTail (terminator : Token) (left : Node) :
    (tokens : List Token) → Step Node (tokens.length + 1)
  | [] => .done left [] (by simp)
  | t :: rest =>
    if isAdditive t.kind then
      (product terminator rest).andThen fun right rest₁ h₁ =>
        (sumTail terminator (.binary left right t.text) rest₁).weaken (by simp; omega)
    else .done left (t :: rest) (by simp)
termination_by tokens => (tokens.length, 0)

def expression (terminator : Token) (tokens : List Token) : Step Node tokens.length :=
  (sum terminator tokens).andThen fun left rest h =>
    match rest, h with
    | [], h => .done left [] h
    | t :: rest₁, h =>
      if t.kind = .equals then
        have : rest₁.length < tokens.length := Nat.lt_of_succ_lt h
        ((expression terminator rest₁).map (Node.assignment left)).weaken
          (by simp at h; omega)
      else .done left (t :: rest₁) h
termination_by (tokens.length, 3)

end

def object (terminator : Token) (tokens : List Token) : Step Node tokens.length :=
  (expect terminator .openingBrace tokens).andThen fun _ rest h =>
    ((properties terminator rest).map Node.object).weaken (by omega)

def declaration (terminator : Token) : (tokens : List Token) → Step Node tokens.length
  | [] => .failed (.unexpected .declaredName terminator) []
  | word :: rest =>
    (expect terminator .declaredName rest).andThen fun name rest₁ h₁ =>
      match rest₁, h₁ with
      | [], _ => .failed (.unexpected .declarationEquals terminator) []
      | t :: rest₂, h₁ =>
        if t.kind = .semicolon then
          if word.kind = .constWord then .failed (.unexpected .constantValue t) (t :: rest₂)
          else .done (.declaration name.text none false) rest₂ (by simp at h₁ ⊢; omega)
        else
          (expect terminator .declarationEquals (t :: rest₂)).andThen fun _ rest₃ h₃ =>
            (expression terminator rest₃).andThen fun value rest₄ h₄ =>
              (expect terminator .declarationEnd rest₄).andThen fun _ rest₅ h₅ =>
                .done (.declaration name.text (some value) (word.kind == .constWord)) rest₅
                  (by simp at h₁ h₃ ⊢; omega)

def statement (terminator : Token) (tokens : List Token) : Step Node tokens.length :=
  match tokens.head?.map Token.kind with
  | some .letWord => declaration terminator tokens
  | some .constWord => declaration terminator tokens
  | _ =>
    (expression terminator tokens).andThen fun value rest h =>
      match rest, h with
      | [], h => .done value [] h
      | t :: rest₁, h =>
        if t.kind = .semicolon then .done value rest₁ (by simp at h; omega)
        else .done value (t :: rest₁) h

def statements (terminator : Token) : (tokens : List Token) → Step (List Node) (tokens.length + 1)
  | [] => .done [] [] (by simp)
  | t :: rest =>
    (statement terminator (t :: rest)).andThen fun first rest₁ _ =>
      ((statements terminator rest₁).map (first :: ·)).weaken (by omega)
termination_by tokens => tokens.length
decreasing_by simp_all

def readWith {α : Type} (reader : Token → (tokens : List Token) → Step α tokens.length)
    (s : TokenStream) : Except ParseFault α × TokenStream :=
  match reader s.terminator s.tokens with
  | .done value rest _ => (.ok value, { s with tokens := rest })
  | .failed fault rest => (.error fault, { s with tokens := rest })

def accept (complaint : Complaint) (s : TokenStream) : Except ParseFault Token × TokenStream :=
  if complaint.expected = some s.current.kind then (.ok s.current, s.eat.2)
  else (.error (.unexpected complaint s.current), s)

def body (tokens : List Token) : Except ParseFault (List Node) :=
  match TokenStream.ofTokens? tokens with
  | none => .error .unterminated
  | some s =>
    match statements s.terminator s.tokens with
    | .done body _ _ => .ok body
    | .failed fault _ => .error fault

def program (tokens : List Token) : Except ParseFault Node := Node.program <$> body tokens

end Parser

end LetLang
