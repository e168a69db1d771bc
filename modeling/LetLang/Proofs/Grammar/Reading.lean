import LetLang.Tree.Parser

namespace LetLang.Parser

abbrev Reading (α : Type) := Except ParseFault α × List Token

variable {α β : Type} {m n : Nat}

namespace Reading

def bind (r : Reading α) (next : α → List Token → Reading β) : Reading β :=
  match r with
  | (.ok value, rest) => next value rest
  | (.error fault, rest) => (.error fault, rest)

def map (f : α → β) (r : Reading α) : Reading β :=
  r.bind fun value rest => (.ok (f value), rest)

@[simp] theorem bind_ok (value : α) (rest : List Token) (next : α → List Token → Reading β) :
    bind (.ok value, rest) next = next value rest := rfl

@[simp] theorem bind_error (fault : ParseFault) (rest : List Token)
    (next : α → List Token → Reading β) :
    bind (.error fault, rest) next = (.error fault, rest) := rfl

@[simp] theorem map_ok (f : α → β) (value : α) (rest : List Token) :
    map f (.ok value, rest) = (.ok (f value), rest) := rfl

@[simp] theorem map_error (f : α → β) (fault : ParseFault) (rest : List Token) :
    map f (.error fault, rest) = (.error fault, rest) := rfl

theorem of_bind_ok {r : Reading α} {next : α → List Token → Reading β} {value : β}
    {rest : List Token} (h : r.bind next = (.ok value, rest)) :
    ∃ a us, r = (.ok a, us) ∧ next a us = (.ok value, rest) := by
  obtain ⟨fault | a, us⟩ := r
  · cases h
  · exact ⟨a, us, rfl, h⟩

end Reading

namespace Step

def reading : Step α n → Reading α
  | done value rest _ => (.ok value, rest)
  | failed fault rest => (.error fault, rest)

@[simp] theorem reading_done (value : α) (rest : List Token) (h : rest.length < n) :
    (done value rest h).reading = (.ok value, rest) := rfl

@[simp] theorem reading_failed (fault : ParseFault) (rest : List Token) :
    (failed fault rest : Step α n).reading = (.error fault, rest) := rfl

theorem reading_andThen {s : Step α n}
    {next : (value : α) → (rest : List Token) → rest.length < n → Step β m}
    {g : α → List Token → Reading β}
    (h : ∀ value rest hs, (next value rest hs).reading = g value rest) :
    (s.andThen next).reading = s.reading.bind g := by
  cases s with
  | done value rest hs => exact h value rest hs
  | failed fault rest => rfl

@[simp] theorem reading_map (f : α → β) (s : Step α n) : (s.map f).reading = s.reading.map f :=
  reading_andThen fun _ _ _ => rfl

@[simp] theorem reading_weaken (s : Step α n) (h : n ≤ m) : (s.weaken h).reading = s.reading := by
  cases s <;> rfl

theorem shorter_of_reading {s : Step α n} {value : α} {rest : List Token}
    (h : s.reading = (.ok value, rest)) : rest.length < n := by
  cases s with
  | done value rest hs => cases h; exact hs
  | failed fault rest => cases h

end Step

variable (terminator : Token)

theorem reading_expect_nil (c : Complaint) :
    (expect terminator c []).reading = (.error (.unexpected c terminator), []) := by
  simp [expect]

theorem reading_expect_cons (c : Complaint) (t : Token) (rest : List Token) :
    (expect terminator c (t :: rest)).reading =
      if c.expected = some t.kind then (.ok t, rest) else (.error (.unexpected c t), t :: rest) := by
  simp only [expect]
  split <;> rfl

theorem reading_primary_nil :
    (primary terminator []).reading = (.error (.unexpected .primary terminator), []) := by
  simp [primary]

theorem reading_primary_identifier {t : Token} (h : t.kind = .identifier) (rest : List Token) :
    (primary terminator (t :: rest)).reading = (.ok (.identifier t.text), rest) := by
  simp [primary, h]

theorem reading_primary_number {t : Token} {x : Number} (h : t.kind = .number)
    (hx : Number.ofText? t.text = some x) (rest : List Token) :
    (primary terminator (t :: rest)).reading = (.ok (.number x), rest) := by
  simp only [primary, h]
  split <;> simp_all

theorem reading_primary_unreadable {t : Token} (h : t.kind = .number)
    (hx : Number.ofText? t.text = none) (rest : List Token) :
    (primary terminator (t :: rest)).reading = (.error (.unreadable t.text), rest) := by
  simp only [primary, h]
  split <;> simp_all

theorem reading_primary_openParen {t : Token} (h : t.kind = .openParen) (rest : List Token) :
    (primary terminator (t :: rest)).reading =
      (expression terminator rest).reading.bind fun value rest₁ =>
        (expect terminator .closingParen rest₁).reading.map fun _ => value := by
  simp only [primary, h]
  exact Step.reading_andThen fun _ _ _ => Step.reading_andThen fun _ _ _ => rfl

theorem reading_primary_openBrace {t : Token} (h : t.kind = .openBrace) (rest : List Token) :
    (primary terminator (t :: rest)).reading = (properties terminator rest).reading.map .object := by
  simp [primary, h]

theorem reading_primary_other {t : Token} (hi : t.kind ≠ .identifier) (hn : t.kind ≠ .number)
    (hp : t.kind ≠ .openParen) (hb : t.kind ≠ .openBrace) (rest : List Token) :
    (primary terminator (t :: rest)).reading = (.error (.unexpected .primary t), t :: rest) := by
  rw [primary]
  split <;> first | contradiction | rfl

theorem reading_properties_nil :
    (properties terminator []).reading = (.error (.unexpected .closingBrace terminator), []) := by
  simp [properties]

theorem reading_properties_closed {t : Token} (h : t.kind = .closeBrace) (rest : List Token) :
    (properties terminator (t :: rest)).reading = (.ok [], rest) := by
  simp [properties, h]

def behindProperty (first : Node) : List Token → Reading (List Node)
  | [] => (.error (.unexpected .propertyEnd terminator), [])
  | t :: rest =>
    if t.kind = .closeBrace then (.ok [first], rest)
    else if t.kind = .comma then (properties terminator rest).reading.map (first :: ·)
    else (.error (.unexpected .propertyEnd t), t :: rest)

theorem reading_properties_cons {t : Token} (h : t.kind ≠ .closeBrace) (rest : List Token) :
    (properties terminator (t :: rest)).reading =
      (property terminator (t :: rest)).reading.bind (behindProperty terminator) := by
  rw [properties, if_neg h]
  refine Step.reading_andThen fun first rest₁ h₁ => ?_
  cases rest₁ with
  | nil => rfl
  | cons t₁ rest₂ =>
    simp only [behindProperty]
    split
    · rfl
    · split
      · simp
      · rfl

def behindKey (key : Token) : List Token → Reading Node
  | [] => (.error (.unexpected .propertyColon terminator), [])
  | t :: rest =>
    if t.kind = .comma ∨ t.kind = .closeBrace then (.ok (.property key.text none), t :: rest)
    else if t.kind = .colon then
      (expression terminator rest).reading.map fun value => .property key.text (some value)
    else (.error (.unexpected .propertyColon t), t :: rest)

theorem reading_property (tokens : List Token) :
    (property terminator tokens).reading =
      (expect terminator .propertyKey tokens).reading.bind (behindKey terminator) := by
  rw [property]
  refine Step.reading_andThen fun key rest h => ?_
  cases rest with
  | nil => rfl
  | cons t rest₁ =>
    simp only [behindKey]
    split
    · rfl
    · split
      · simp
      · rfl

structure Chain (joins : TokenKind → Bool) (operand : List Token → Reading Node)
    (tail : Node → List Token → Reading Node) : Prop where
  nil : ∀ left, tail left [] = (.ok left, [])
  cons : ∀ left t rest, tail left (t :: rest) =
    if joins t.kind then
      (operand rest).bind fun right rest₁ => tail (.binary left right t.text) rest₁
    else (.ok left, t :: rest)

theorem reading_product (tokens : List Token) :
    (product terminator tokens).reading =
      (primary terminator tokens).reading.bind fun left rest =>
        (productTail terminator left rest).reading := by
  rw [product]
  exact Step.reading_andThen fun left rest h => by simp

theorem product_chain : Chain isMultiplicative (fun ts => (primary terminator ts).reading)
    fun left ts => (productTail terminator left ts).reading where
  nil left := by simp [productTail]
  cons left t rest := by
    rw [productTail]
    split
    · exact Step.reading_andThen fun right rest₁ h => by simp
    · rfl

theorem reading_productTail_cons (left : Node) (t : Token) (rest : List Token) :
    (productTail terminator left (t :: rest)).reading =
      if isMultiplicative t.kind then
        (primary terminator rest).reading.bind fun right rest₁ =>
          (productTail terminator (.binary left right t.text) rest₁).reading
      else (.ok left, t :: rest) :=
  (product_chain terminator).cons left t rest

theorem reading_sum (tokens : List Token) :
    (sum terminator tokens).reading =
      (product terminator tokens).reading.bind fun left rest =>
        (sumTail terminator left rest).reading := by
  rw [sum]
  exact Step.reading_andThen fun left rest h => by simp

theorem sum_chain : Chain isAdditive (fun ts => (product terminator ts).reading)
    fun left ts => (sumTail terminator left ts).reading where
  nil left := by simp [sumTail]
  cons left t rest := by
    rw [sumTail]
    split
    · exact Step.reading_andThen fun right rest₁ h => by simp
    · rfl

theorem reading_sumTail_cons (left : Node) (t : Token) (rest : List Token) :
    (sumTail terminator left (t :: rest)).reading =
      if isAdditive t.kind then
        (product terminator rest).reading.bind fun right rest₁ =>
          (sumTail terminator (.binary left right t.text) rest₁).reading
      else (.ok left, t :: rest) :=
  (sum_chain terminator).cons left t rest

def behindSum (left : Node) : List Token → Reading Node
  | [] => (.ok left, [])
  | t :: rest =>
    if t.kind = .equals then (expression terminator rest).reading.map (Node.assignment left)
    else (.ok left, t :: rest)

theorem reading_expression (tokens : List Token) :
    (expression terminator tokens).reading =
      (sum terminator tokens).reading.bind (behindSum terminator) := by
  rw [expression]
  refine Step.reading_andThen fun left rest h => ?_
  cases rest with
  | nil => rfl
  | cons t rest₁ =>
    simp only [behindSum]
    split
    · simp
    · rfl

theorem reading_object (tokens : List Token) :
    (object terminator tokens).reading =
      (expect terminator .openingBrace tokens).reading.bind fun _ rest =>
        (properties terminator rest).reading.map .object := by
  rw [object]
  exact Step.reading_andThen fun _ rest _ => by simp

def initializer (constant : Bool) (name : Token) (tokens : List Token) : Reading Node :=
  (expect terminator .declarationEquals tokens).reading.bind fun _ rest =>
    (expression terminator rest).reading.bind fun value rest₁ =>
      (expect terminator .declarationEnd rest₁).reading.map fun _ =>
        .declaration name.text (some value) constant

def behindName (constant : Bool) (name : Token) : List Token → Reading Node
  | [] => (.error (.unexpected .declarationEquals terminator), [])
  | t :: rest =>
    if t.kind = .semicolon then
      if constant then (.error (.unexpected .constantValue t), t :: rest)
      else (.ok (.declaration name.text none false), rest)
    else initializer terminator constant name (t :: rest)

theorem reading_declaration_nil : (declaration terminator []).reading =
    (.error (.unexpected .declaredName terminator), []) := by
  rw [declaration, Step.reading_failed]

theorem reading_declaration_cons (word : Token) (rest : List Token) :
    (declaration terminator (word :: rest)).reading =
      (expect terminator .declaredName rest).reading.bind
        (behindName terminator (word.kind == .constWord)) := by
  rw [declaration]
  refine Step.reading_andThen fun name rest₁ h₁ => ?_
  cases rest₁ with
  | nil => rfl
  | cons t rest₂ =>
    simp only [behindName, initializer, beq_iff_eq]
    split
    · split <;> rfl
    · exact Step.reading_andThen fun _ _ _ => Step.reading_andThen fun _ _ _ =>
        Step.reading_andThen fun _ _ _ => rfl

def behindExpression (value : Node) : List Token → Reading Node
  | [] => (.ok value, [])
  | t :: rest => if t.kind = .semicolon then (.ok value, rest) else (.ok value, t :: rest)

theorem reading_statement_nil : (statement terminator []).reading =
    (.error (.unexpected .primary terminator), []) := by
  have first : (statement terminator []).reading =
      (expression terminator []).reading.bind behindExpression := by
    rw [statement]
    exact Step.reading_andThen fun _ _ shorter => absurd shorter (Nat.not_lt_zero _)
  rw [first, reading_expression, reading_sum, reading_product, reading_primary_nil]
  rfl

theorem reading_statement_word {t : Token} (h : t.kind = .letWord ∨ t.kind = .constWord)
    (rest : List Token) :
    (statement terminator (t :: rest)).reading = (declaration terminator (t :: rest)).reading := by
  rcases h with h | h <;> simp [statement, h]

theorem reading_statement_expression {t : Token}
    (h : ¬(t.kind = .letWord ∨ t.kind = .constWord)) (rest : List Token) :
    (statement terminator (t :: rest)).reading =
      (expression terminator (t :: rest)).reading.bind behindExpression := by
  rw [statement]
  split
  · simp_all
  · simp_all
  · refine Step.reading_andThen fun value rest₁ h₁ => ?_
    cases rest₁ with
    | nil => rfl
    | cons s rest₂ =>
      simp only [behindExpression]
      split <;> rfl

theorem reading_statements_nil : (statements terminator []).reading = (.ok [], []) := by
  simp [statements]

theorem reading_statements_cons (t : Token) (rest : List Token) :
    (statements terminator (t :: rest)).reading =
      (statement terminator (t :: rest)).reading.bind fun first rest₁ =>
        (statements terminator rest₁).reading.map (first :: ·) := by
  rw [statements]
  exact Step.reading_andThen fun first rest₁ h => by simp

theorem readWith_eq (reader : Token → (tokens : List Token) → Step α tokens.length)
    (s : TokenStream) : readWith reader s =
      ((reader s.terminator s.tokens).reading.1,
        { s with tokens := (reader s.terminator s.tokens).reading.2 }) := by
  rw [readWith]
  cases reader s.terminator s.tokens <;> rfl

end LetLang.Parser
