import LetLang.Proofs.Grammar.Reading

namespace LetLang

structure Token.Moves (f : Token → Token) : Prop where
  kind : ∀ t, (f t).kind = t.kind
  text : ∀ t, (f t).text = t.text

def ParseFault.moved (f : Token → Token) : ParseFault → ParseFault
  | .unterminated => .unterminated
  | .unexpected c found => .unexpected c (f found)
  | .unreadable numeral => .unreadable numeral

namespace Parser

variable {α β γ δ : Type} {f : Token → Token}

namespace Reading

def moved (f : Token → Token) (m : α → β) (r : Reading α) : Reading β :=
  ((r.1.map m).mapError (ParseFault.moved f), r.2.map f)

@[simp] theorem moved_ok (m : α → β) (value : α) (rest : List Token) :
    moved f m (.ok value, rest) = (.ok (m value), rest.map f) := rfl

@[simp] theorem moved_error (m : α → β) (fault : ParseFault) (rest : List Token) :
    moved f m (.error fault, rest) = (.error (fault.moved f), rest.map f) := rfl

theorem moved_bind {m : α → β} {k : γ → δ} {r : Reading α} {r' : Reading β}
    {g : α → List Token → Reading γ} {g' : β → List Token → Reading δ} (hr : r' = r.moved f m)
    (hg : ∀ value rest, r = (.ok value, rest) →
      g' (m value) (rest.map f) = (g value rest).moved f k) :
    r'.bind g' = (r.bind g).moved f k := by
  obtain ⟨fault | value, rest⟩ := r
  · rw [hr]
    rfl
  · rw [hr]
    exact hg value rest rfl

theorem moved_map {m : α → β} {k : γ → δ} {r : Reading α} {r' : Reading β} {g : α → γ} {g' : β → δ}
    (hr : r' = r.moved f m) (hg : ∀ value, g' (m value) = k (g value)) :
    r'.map g' = (r.map g).moved f k :=
  moved_bind hr fun value rest _ => by rw [hg, moved_ok]

end Reading

variable (hf : Token.Moves f) (terminator : Token)
include hf

theorem expect_moved (c : Complaint) (tokens : List Token) :
    (expect (f terminator) c (tokens.map f)).reading =
      (expect terminator c tokens).reading.moved f f := by
  cases tokens with
  | nil => rfl
  | cons t rest =>
    rw [List.map_cons, reading_expect_cons, reading_expect_cons, hf.kind]
    split <;> rfl

theorem chain_moved {P Q : List Token → Reading Node} {T U : Node → List Token → Reading Node}
    {joins : TokenKind → Bool} {n : Nat} (h : Chain joins P T) (h' : Chain joins Q U)
    (shorter : ∀ tokens value rest, P tokens = (.ok value, rest) → rest.length < tokens.length)
    (ho : ∀ tokens : List Token, tokens.length < n → Q (tokens.map f) = (P tokens).moved f id)
    (left : Node) (tokens : List Token) (ht : tokens.length ≤ n) :
    U left (tokens.map f) = (T left tokens).moved f id := by
  match tokens with
  | [] => rw [List.map_nil, h.nil, h'.nil, Reading.moved_ok, List.map_nil, id]
  | t :: rest =>
    have inside : rest.length < n := Nat.lt_of_succ_le ht
    rw [List.map_cons, h.cons, h'.cons, hf.kind, hf.text]
    split
    · refine Reading.moved_bind (ho rest inside) fun right rest₁ hr => ?_
      have behind := shorter rest right rest₁ hr
      exact chain_moved h h' shorter ho _ rest₁ (by omega)
    · rfl
termination_by tokens.length

mutual

theorem primary_moved (tokens : List Token) :
    (primary (f terminator) (tokens.map f)).reading =
      (primary terminator tokens).reading.moved f id := by
  match tokens with
  | [] => rw [List.map_nil, reading_primary_nil, reading_primary_nil]; rfl
  | t :: rest =>
    rw [List.map_cons]
    by_cases hi : t.kind = .identifier
    · rw [reading_primary_identifier _ hi, reading_primary_identifier _ ((hf.kind t).trans hi),
        hf.text]
      rfl
    by_cases hn : t.kind = .number
    · have hn' := (hf.kind t).trans hn
      cases hx : Number.ofText? t.text with
      | none =>
        rw [reading_primary_unreadable _ hn hx,
          reading_primary_unreadable _ hn' (hf.text t ▸ hx), hf.text]
        rfl
      | some x =>
        rw [reading_primary_number _ hn hx, reading_primary_number _ hn' (hf.text t ▸ hx)]
        rfl
    by_cases hp : t.kind = .openParen
    · rw [reading_primary_openParen _ hp, reading_primary_openParen _ ((hf.kind t).trans hp)]
      exact Reading.moved_bind (expression_moved rest) fun value rest₁ _ =>
        Reading.moved_map (expect_moved hf terminator .closingParen rest₁) fun _ => rfl
    by_cases hb : t.kind = .openBrace
    · rw [reading_primary_openBrace _ hb, reading_primary_openBrace _ ((hf.kind t).trans hb)]
      exact Reading.moved_map (properties_moved rest) fun _ => rfl
    rw [reading_primary_other _ hi hn hp hb]
    rw [← hf.kind t] at hi hn hp hb
    rw [reading_primary_other _ hi hn hp hb]
    rfl
termination_by (tokens.length, 0)

theorem properties_moved (tokens : List Token) :
    (properties (f terminator) (tokens.map f)).reading =
      (properties terminator tokens).reading.moved f id := by
  match tokens with
  | [] => rw [List.map_nil, reading_properties_nil, reading_properties_nil]; rfl
  | t :: rest =>
    rw [List.map_cons]
    by_cases hc : t.kind = .closeBrace
    · rw [reading_properties_closed _ hc, reading_properties_closed _ ((hf.kind t).trans hc)]
      rfl
    · rw [reading_properties_cons _ hc, reading_properties_cons _ (hf.kind t ▸ hc)]
      refine Reading.moved_bind (property_moved (t :: rest)) fun first rest₁ hr => ?_
      have shorter := Step.shorter_of_reading hr
      cases rest₁ with
      | nil => rfl
      | cons t₁ rest₂ =>
        have behind : rest₂.length < (t :: rest).length := Nat.lt_of_succ_lt shorter
        simp only [behindProperty, List.map_cons, hf.kind]
        split
        · rfl
        · split
          · exact Reading.moved_map (properties_moved rest₂) fun _ => rfl
          · rfl
termination_by (tokens.length, 1)

theorem property_moved (tokens : List Token) :
    (property (f terminator) (tokens.map f)).reading =
      (property terminator tokens).reading.moved f id := by
  rw [reading_property, reading_property]
  refine Reading.moved_bind (expect_moved hf terminator .propertyKey tokens) fun key rest hr => ?_
  have shorter := Step.shorter_of_reading hr
  cases rest with
  | nil => rfl
  | cons t rest₁ =>
    have behind : rest₁.length < tokens.length := Nat.lt_of_succ_lt shorter
    simp only [behindKey, List.map_cons, hf.kind, hf.text]
    split
    · rfl
    · split
      · exact Reading.moved_map (expression_moved rest₁) fun _ => rfl
      · rfl
termination_by (tokens.length, 0)

theorem product_moved (tokens : List Token) :
    (product (f terminator) (tokens.map f)).reading =
      (product terminator tokens).reading.moved f id := by
  rw [reading_product, reading_product]
  refine Reading.moved_bind (primary_moved tokens) fun left rest hr => ?_
  exact chain_moved hf (product_chain _) (product_chain _)
    (fun _ _ _ h => Step.shorter_of_reading h) (fun us _ => primary_moved us) left rest
    (Nat.le_of_lt (Step.shorter_of_reading hr))
termination_by (tokens.length, 1)

theorem sum_moved (tokens : List Token) :
    (sum (f terminator) (tokens.map f)).reading =
      (sum terminator tokens).reading.moved f id := by
  rw [reading_sum, reading_sum]
  refine Reading.moved_bind (product_moved tokens) fun left rest hr => ?_
  exact chain_moved hf (sum_chain _) (sum_chain _)
    (fun _ _ _ h => Step.shorter_of_reading h) (fun us _ => product_moved us) left rest
    (Nat.le_of_lt (Step.shorter_of_reading hr))
termination_by (tokens.length, 2)

theorem expression_moved (tokens : List Token) :
    (expression (f terminator) (tokens.map f)).reading =
      (expression terminator tokens).reading.moved f id := by
  rw [reading_expression, reading_expression]
  refine Reading.moved_bind (sum_moved tokens) fun left rest hr => ?_
  have shorter := Step.shorter_of_reading hr
  cases rest with
  | nil => rfl
  | cons t rest₁ =>
    have behind : rest₁.length < tokens.length := Nat.lt_of_succ_lt shorter
    simp only [behindSum, List.map_cons, hf.kind]
    split
    · exact Reading.moved_map (expression_moved rest₁) fun _ => rfl
    · rfl
termination_by (tokens.length, 3)

end

theorem initializer_moved (constant : Bool) (name : Token) (tokens : List Token) :
    initializer (f terminator) constant (f name) (tokens.map f) =
      (initializer terminator constant name tokens).moved f id := by
  refine Reading.moved_bind (expect_moved hf terminator _ tokens) fun _ rest _ => ?_
  refine Reading.moved_bind (expression_moved hf terminator rest) fun value rest₁ _ => ?_
  exact Reading.moved_map (expect_moved hf terminator _ rest₁) fun _ => by rw [hf.text]; rfl

theorem behindName_moved (constant : Bool) (name : Token) (tokens : List Token) :
    behindName (f terminator) constant (f name) (tokens.map f) =
      (behindName terminator constant name tokens).moved f id := by
  cases tokens with
  | nil => rfl
  | cons t rest =>
    simp only [behindName, List.map_cons, hf.kind, hf.text]
    split
    · split <;> rfl
    · exact initializer_moved hf terminator constant name (t :: rest)

theorem declaration_moved (word : Token) (rest : List Token) :
    (declaration (f terminator) (f word :: rest.map f)).reading =
      (declaration terminator (word :: rest)).reading.moved f id := by
  rw [reading_declaration_cons, reading_declaration_cons, hf.kind]
  exact Reading.moved_bind (expect_moved hf terminator _ rest) fun name rest₁ _ =>
    behindName_moved hf terminator _ name rest₁

theorem statement_moved (t : Token) (rest : List Token) :
    (statement (f terminator) (f t :: rest.map f)).reading =
      (statement terminator (t :: rest)).reading.moved f id := by
  by_cases ht : t.kind = .letWord ∨ t.kind = .constWord
  · rw [reading_statement_word _ ht, reading_statement_word _ ((hf.kind t).symm ▸ ht)]
    exact declaration_moved hf terminator t rest
  · rw [reading_statement_expression _ ht,
      reading_statement_expression _ ((hf.kind t).symm ▸ ht)]
    refine Reading.moved_bind (expression_moved hf terminator (t :: rest)) fun value rest₁ _ => ?_
    cases rest₁ with
    | nil => rfl
    | cons s rest₂ =>
      simp only [behindExpression, List.map_cons, hf.kind]
      split <;> rfl

theorem statements_moved (tokens : List Token) :
    (statements (f terminator) (tokens.map f)).reading =
      (statements terminator tokens).reading.moved f id := by
  match tokens with
  | [] => rw [List.map_nil, reading_statements_nil, reading_statements_nil]; rfl
  | t :: rest =>
    rw [List.map_cons, reading_statements_cons, reading_statements_cons]
    refine Reading.moved_bind (statement_moved hf terminator t rest) fun first rest₁ hr => ?_
    have shorter := Step.shorter_of_reading hr
    exact Reading.moved_map (statements_moved rest₁) fun _ => rfl
termination_by tokens.length
decreasing_by exact shorter

end Parser

end LetLang
