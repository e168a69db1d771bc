import LetLang.Proofs.Grammar.Soundness

namespace LetLang.Grammar
open LetLang.Parser

variable (terminator : Token)

def Ends : List Token → Prop
  | [] => True
  | t :: _ => isMultiplicative t.kind = false ∧ isAdditive t.kind = false ∧ t.kind ≠ .equals

def EndsProduct : List Token → Prop
  | [] => True
  | t :: _ => isMultiplicative t.kind = false

theorem Ends.endsProduct {rest : List Token} (h : Ends rest) : EndsProduct rest := by
  cases rest with
  | nil => trivial
  | cons t rest => exact h.1

theorem ends_cons {t : Token} {kind : TokenKind} {rest : List Token} (h : t.kind = kind)
    (hm : isMultiplicative kind = false) (ha : isAdditive kind = false) (he : kind ≠ .equals) :
    Ends (t :: rest) := by
  subst h
  exact ⟨hm, ha, he⟩

theorem productTail_ends {rest : List Token} (h : EndsProduct rest) (left : Node) :
    (productTail terminator left rest).reading = (.ok left, rest) := by
  cases rest with
  | nil => exact (product_chain terminator).nil left
  | cons t rest =>
    rw [reading_productTail_cons, if_neg (by simpa [EndsProduct] using h)]

theorem sumTail_ends {rest : List Token} (h : Ends rest) (left : Node) :
    (sumTail terminator left rest).reading = (.ok left, rest) := by
  cases rest with
  | nil => exact (sum_chain terminator).nil left
  | cons t rest =>
    rw [reading_sumTail_cons, if_neg (by simpa using h.2.1)]

theorem behindSum_ends {rest : List Token} (h : Ends rest) (left : Node) :
    behindSum terminator left rest = (.ok left, rest) := by
  cases rest with
  | nil => rfl
  | cons t rest => exact if_neg h.2.2

theorem reading_expect (c : Complaint) {kind : TokenKind} {t : Token} (hc : c.expected = some kind)
    (ht : t.kind = kind) (rest : List Token) :
    (expect terminator c (t :: rest)).reading = (.ok t, rest) := by
  rw [reading_expect_cons, if_pos (ht ▸ hc)]

theorem behindProperty_last {c : Token} (hc : c.kind = .closeBrace) (p : Node)
    (rest : List Token) : behindProperty terminator p (c :: rest) = (.ok [p], rest) :=
  if_pos hc

theorem behindProperty_more {c : Token} (hc : c.kind = .comma) (p : Node) (rest : List Token) :
    behindProperty terminator p (c :: rest) = (properties terminator rest).reading.map (p :: ·) := by
  simp [behindProperty, hc]

theorem properties_of_property {ts rest : List Token} {p : Node} (hp : Property ts p)
    (h : (property terminator (ts ++ rest)).reading = (.ok p, rest)) :
    (properties terminator (ts ++ rest)).reading = behindProperty terminator p rest := by
  obtain ⟨t, us, rfl, ht⟩ := hp.head
  have hb : t.kind ≠ .closeBrace := by simp [ht]
  rw [List.cons_append] at h ⊢
  rw [reading_properties_cons terminator hb, h, Reading.bind_ok]

mutual

theorem primary_reads {ts : List Token} {n : Node} : Primary ts n → ∀ rest,
    (primary terminator (ts ++ rest)).reading = (.ok n, rest)
  | .identifier h, rest => reading_primary_identifier terminator h rest
  | .number h hx, rest => reading_primary_number terminator h hx rest
  | @Primary.parentheses o c us n ho h hc, rest => by
    have hs := expression_reads h (c :: rest) (ends_cons hc rfl rfl nofun)
    rw [List.cons_append, List.append_assoc, List.singleton_append,
      reading_primary_openParen terminator ho, hs, Reading.bind_ok,
      reading_expect terminator .closingParen rfl hc, Reading.map_ok]
  | @Primary.object o c us ps ho h hc, rest => by
    rw [List.cons_append, List.append_assoc, List.singleton_append,
      reading_primary_openBrace terminator ho, fields_reads h hc, Reading.map_ok]

theorem fields_reads {c : Token} {ts : List Token} {ps : List Node} : Fields ts ps →
    c.kind = .closeBrace → ∀ rest,
    (properties terminator (ts ++ c :: rest)).reading = (.ok ps, rest)
  | .none, hc, rest => reading_properties_closed terminator hc rest
  | .all h, hc, rest =>
    properties_reads h (.inr hc) rest rest fun p => behindProperty_last terminator hc p rest
  | @Fields.trailing d us ps h hd, hc, rest => by
    rw [List.append_assoc, List.singleton_append]
    refine properties_reads h (.inl hd) _ _ fun p => ?_
    rw [behindProperty_more terminator hd, reading_properties_closed terminator hc, Reading.map_ok]

theorem properties_reads {c : Token} {ts : List Token} {ps : List Node} : Properties ts ps →
    c.kind = .comma ∨ c.kind = .closeBrace → ∀ rest rest₁,
    (∀ p, behindProperty terminator p (c :: rest) = (.ok [p], rest₁)) →
    (properties terminator (ts ++ c :: rest)).reading = (.ok ps, rest₁)
  | .last h, hc, rest, rest₁, hb => by
    rw [properties_of_property terminator h (property_reads h hc rest), hb]
  | .more h hd hs, hc, rest, rest₁, hb => by
    rw [List.append_assoc, List.cons_append,
      properties_of_property terminator h (property_reads h (.inl hd) _),
      behindProperty_more terminator hd, properties_reads hs hc rest rest₁ hb, Reading.map_ok]

theorem property_reads {c : Token} {ts : List Token} {p : Node} : Property ts p →
    c.kind = .comma ∨ c.kind = .closeBrace → ∀ rest,
    (property terminator (ts ++ c :: rest)).reading = (.ok p, c :: rest)
  | .bare hk, hc, rest => by
    rw [List.singleton_append, reading_property, reading_expect terminator .propertyKey rfl hk,
      Reading.bind_ok]
    exact if_pos hc
  | @Property.valued k d us n hk hd h, hc, rest => by
    have hs := expression_reads h (c :: rest)
      (hc.elim (ends_cons · rfl rfl nofun) (ends_cons · rfl rfl nofun))
    rw [List.cons_append, List.cons_append, reading_property,
      reading_expect terminator .propertyKey rfl hk, Reading.bind_ok]
    simp [behindKey, hd, hs]

theorem product_reads {ts : List Token} {n : Node} : Product ts n → ∀ rest,
    (product terminator (ts ++ rest)).reading = (productTail terminator n rest).reading
  | .primary h, rest => by
    rw [reading_product, primary_reads h rest, Reading.bind_ok]
  | @Product.join t us vs l r hl ht hr, rest => by
    rw [List.append_assoc, List.cons_append, product_reads hl, reading_productTail_cons,
      if_pos (isMultiplicative_iff.mpr ht), primary_reads hr rest, Reading.bind_ok]

theorem sum_reads {ts : List Token} {n : Node} : Sum ts n → ∀ rest, EndsProduct rest →
    (sum terminator (ts ++ rest)).reading = (sumTail terminator n rest).reading
  | .product h, rest, hr => by
    rw [reading_sum, product_reads h rest, productTail_ends terminator hr, Reading.bind_ok]
  | @Sum.join t us vs l r hl ht hr, rest, he => by
    have hp : EndsProduct (t :: (vs ++ rest)) := by
      rcases ht with ht | ht <;> simp [EndsProduct, ht, isMultiplicative]
    rw [List.append_assoc, List.cons_append, sum_reads hl _ hp, reading_sumTail_cons,
      if_pos (isAdditive_iff.mpr ht), product_reads hr rest, productTail_ends terminator he,
      Reading.bind_ok]

theorem expression_reads {ts : List Token} {n : Node} : Expression ts n → ∀ rest, Ends rest →
    (expression terminator (ts ++ rest)).reading = (.ok n, rest)
  | .sum h, rest, he => by
    rw [reading_expression, sum_reads h rest he.endsProduct, sumTail_ends terminator he,
      Reading.bind_ok, behindSum_ends terminator he]
  | @Expression.assignment t us vs l r hl ht hr, rest, he => by
    have hp : EndsProduct (t :: (vs ++ rest)) := by simp [EndsProduct, ht, isMultiplicative]
    rw [List.append_assoc, List.cons_append, reading_expression, sum_reads hl _ hp,
      reading_sumTail_cons, if_neg (by simp [ht, isAdditive]), Reading.bind_ok]
    simp [behindSum, ht, expression_reads hr rest he]

end

def Begins : List Token → Prop
  | [] => True
  | t :: _ => t.kind = .letWord ∨ t.kind = .constWord ∨ Opening t.kind

theorem Begins.ends {rest : List Token} (h : Begins rest) : Ends rest := by
  cases rest with
  | nil => trivial
  | cons t rest =>
    rcases h with h | h | h | h | h | h <;> exact ends_cons h rfl rfl nofun

theorem behindExpression_begins {rest : List Token} (h : Begins rest) (n : Node) :
    behindExpression n rest = (.ok n, rest) := by
  cases rest with
  | nil => rfl
  | cons t rest =>
    have hs : t.kind ≠ .semicolon := by
      rcases h with h | h | h | h | h | h <;> simp [h]
    exact if_neg hs

theorem reading_declaration_named {w i : Token} (hi : i.kind = .identifier) (rest : List Token) :
    (declaration terminator (w :: i :: rest)).reading =
      behindName terminator (w.kind == .constWord) i rest := by
  rw [reading_declaration_cons, reading_expect terminator .declaredName rfl hi, Reading.bind_ok]

theorem initialized_reads {w i e s : Token} {ts : List Token} {n : Node}
    (hi : i.kind = .identifier) (he : e.kind = .equals) (h : Expression ts n)
    (hs : s.kind = .semicolon) (rest : List Token) :
    (declaration terminator (w :: i :: e :: (ts ++ [s]) ++ rest)).reading =
      (.ok (.declaration i.text (some n) (w.kind == .constWord)), rest) := by
  have hn := expression_reads terminator h (s :: rest) (ends_cons hs rfl rfl nofun)
  have ht : e.kind ≠ .semicolon := by simp [he]
  rw [List.cons_append, List.cons_append, List.cons_append, List.append_assoc,
    List.singleton_append, reading_declaration_named terminator hi, behindName, if_neg ht,
    initializer, reading_expect terminator .declarationEquals rfl he, Reading.bind_ok, hn, Reading.bind_ok,
    reading_expect terminator .declarationEnd rfl hs, Reading.map_ok]

theorem declaration_reads {ts : List Token} {n : Node} (h : Declaration ts n) (rest : List Token) :
    (declaration terminator (ts ++ rest)).reading = (.ok n, rest) := by
  cases h with
  | @empty w i s hw hi hs =>
    refine (reading_declaration_named terminator hi (s :: rest)).trans ?_
    simp [behindName, hs, hw]
  | mutable hw hi he h hs =>
    rw [initialized_reads terminator hi he h hs rest, hw]
    rfl
  | constant hw hi he h hs =>
    rw [initialized_reads terminator hi he h hs rest, hw]
    rfl

theorem statement_of_expression {ts rest : List Token} {n : Node} (h : Expression ts n)
    (he : Ends rest) :
    (statement terminator (ts ++ rest)).reading = behindExpression n rest := by
  have hr := expression_reads terminator h rest he
  obtain ⟨t, us, rfl, ht⟩ := h.head
  have hw : ¬(t.kind = .letWord ∨ t.kind = .constWord) := by
    rcases ht with ht | ht | ht | ht <;> simp [ht]
  rw [List.cons_append] at hr ⊢
  rw [reading_statement_expression terminator hw, hr, Reading.bind_ok]

theorem statement_reads {ts rest : List Token} {n : Node} (h : Statement ts n) (hb : Begins rest) :
    (statement terminator (ts ++ rest)).reading = (.ok n, rest) := by
  cases h with
  | declaration h =>
    have hr := declaration_reads terminator h rest
    obtain ⟨t, us, rfl, ht⟩ := h.head
    exact (reading_statement_word terminator ht _).trans hr
  | expression h =>
    rw [statement_of_expression terminator h hb.ends, behindExpression_begins hb]
  | @closed s us _ h hs =>
    rw [List.append_assoc, List.singleton_append,
      statement_of_expression terminator h (ends_cons hs rfl rfl nofun)]
    exact if_pos hs

theorem Statements.begins {ts : List Token} {ns : List Node} (h : Statements ts ns) :
    Begins ts := by
  cases h with
  | nil => trivial
  | cons h _ =>
    obtain ⟨t, us, rfl, ht⟩ := h.head
    exact ht

theorem statements_reads {ts : List Token} {ns : List Node} (h : Statements ts ns) :
    (statements terminator ts).reading = (.ok ns, []) := by
  induction h with
  | nil => exact reading_statements_nil terminator
  | @cons ts us n ns h hs ih =>
    have hr := statement_reads terminator h hs.begins
    obtain ⟨t, vs, rfl, _⟩ := h.head
    rw [List.cons_append] at hr ⊢
    rw [reading_statements_cons, hr, Reading.bind_ok, ih, Reading.map_ok]

end LetLang.Grammar
