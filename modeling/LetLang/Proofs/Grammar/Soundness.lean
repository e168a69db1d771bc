import LetLang.Proofs.Grammar.Obedience

namespace LetLang.Grammar
open LetLang.Parser

variable (terminator : Token)

theorem isMultiplicative_iff {kind : TokenKind} :
    isMultiplicative kind ↔ kind = .star ∨ kind = .slash ∨ kind = .percent := by
  simp [isMultiplicative, or_assoc]

theorem isAdditive_iff {kind : TokenKind} : isAdditive kind ↔ kind = .plus ∨ kind = .minus := by
  simp [isAdditive]

def sample (kind : TokenKind) : Token := ⟨kind, "", Position.start⟩

theorem primary_sample : Primary [sample .identifier] (.identifier "") := .identifier rfl

theorem expression_sample : Expression [sample .identifier] (.identifier "") :=
  .sum (.product (.primary primary_sample))

theorem shorter_of_split {t : Token} {tokens p rest : List Token} (h : tokens = p ++ t :: rest) :
    rest.length < tokens.length := by
  rw [h, List.length_append, List.length_cons]
  omega

theorem length_le_of_split {tokens p rest : List Token} (h : tokens = p ++ rest) :
    rest.length ≤ tokens.length := by
  rw [h, List.length_append]
  omega

theorem expect_obeys (c : Complaint) {kind : TokenKind} (hn : Native c) (hc : c.expected = some kind)
    (tokens : List Token) :
    Obeys (fun ts t => ts = [t] ∧ t.kind = kind) terminator
      (fun ts => (expect terminator c ts).reading) tokens := by
  have viable (t : Token) (ht : c.expected = some t.kind) :
      Viable (fun ts t => ts = [t] ∧ t.kind = kind) [t] :=
    .of_phrase ⟨rfl, Option.some.inj (ht.symm.trans hc)⟩
  have start := (viable (sample kind) hc).nil
  cases tokens with
  | nil => exact .stuck_nil (reading_expect_nil terminator c) hn start viable
  | cons t rest =>
    by_cases ht : c.expected = some t.kind
    · refine .eats (S := fun us => (.ok t, us))
        (fun us => (reading_expect_cons terminator c t us).trans (if_pos ht)) ?_
      exact .stays (fun _ _ => rfl) ⟨rfl, Option.some.inj (ht.symm.trans hc)⟩
    · exact .stuck_cons (fun us => (reading_expect_cons terminator c t us).trans (if_neg ht)) hn
        start viable

theorem chain_obeys {O C : List Token → Node → Prop} {operand : List Token → Reading Node}
    {tail : Node → List Token → Reading Node} {joins : TokenKind → Bool}
    (h : Chain joins operand tail)
    (hjoin : ∀ ts us t left right, C ts left → joins t.kind → O us right →
      C (ts ++ t :: us) (.binary left right t.text))
    {p : List Token} {left : Node} (hl : C p left) (tokens : List Token)
    (ho : ∀ us, us.length < tokens.length → Obeys O terminator operand us) :
    Obeys (fun us n => C (p ++ us) n) terminator (tail left) tokens := by
  match tokens with
  | [] => exact .stays_nil (h.nil left) (by simpa using hl)
  | t :: rest =>
    by_cases ht : joins t.kind
    · refine .eats (fun us => (h.cons left t us).trans (if_pos ht)) ?_
      -- the phrase on the left takes in the operand, and the rest is shorter
      refine (ho rest (by simp)).bind (fun us rest₁ right split hr => ?_)
        fun us right hr => .of_phrase (hjoin p us t left right hl ht hr)
      have shorter : rest₁.length < (t :: rest).length := Nat.lt_succ_of_le (length_le_of_split split)
      have next := chain_obeys h hjoin (hjoin p us t left right hl ht hr) rest₁
        fun vs hv => ho vs (Nat.lt_trans hv shorter)
      exact next.mono fun vs n hn => by simpa using hn
    · exact .stays_cons (fun us => (h.cons left t us).trans (if_neg ht)) (by simpa using hl)
termination_by tokens.length
decreasing_by exact shorter

def Braced (ts : List Token) (ps : List Node) : Prop :=
  ∃ us c, Fields us ps ∧ c.kind = .closeBrace ∧ ts = us ++ [c]

theorem braced_nil {c : Token} (hc : c.kind = .closeBrace) : Braced [c] [] :=
  ⟨[], c, .none, hc, rfl⟩

theorem braced_last {c : Token} {ts : List Token} {p : Node} (hp : Property ts p)
    (hc : c.kind = .closeBrace) : Braced (ts ++ [c]) [p] :=
  ⟨ts, c, .all (.last hp), hc, rfl⟩

theorem braced_cons {c : Token} {ts us : List Token} {p : Node} {ps : List Node}
    (hp : Property ts p) (hc : c.kind = .comma) (hs : Braced us ps) :
    Braced (ts ++ c :: us) (p :: ps) := by
  obtain ⟨vs, d, hf, hd, rfl⟩ := hs
  exact ⟨ts ++ c :: vs, d, hf.cons hp hc, hd, by simp⟩

mutual

theorem primary_obeys (tokens : List Token) :
    Obeys Primary terminator (fun ts => (primary terminator ts).reading) tokens := by
  have start : Viable Primary [] := (Viable.of_phrase primary_sample).nil
  match tokens with
  | [] => exact .stuck_nil (reading_primary_nil terminator) trivial start nofun
  | t :: rest =>
    by_cases hi : t.kind = .identifier
    · exact .eats (reading_primary_identifier terminator hi)
        (.stays (fun _ _ => rfl) (.identifier hi))
    by_cases hn : t.kind = .number
    · cases hx : Number.ofText? t.text with
      | some x =>
        exact .eats (reading_primary_number terminator hn hx)
          (.stays (fun _ _ => rfl) (.number hn hx))
      | none =>
        exact .fails (p := [t]) rfl (fun us _ => reading_primary_unreadable terminator hn hx us)
          ⟨t, by simp, hn, rfl, hx⟩
    by_cases hp : t.kind = .openParen
    · refine .eats (reading_primary_openParen terminator hp) ?_
      refine (expression_obeys rest).bind (fun ts rest₁ n split h => ?_)
        fun ts n h => ⟨[sample .closeParen], n, .parentheses hp h rfl⟩
      refine (expect_obeys terminator .closingParen trivial rfl rest₁).map fun us c hc => ?_
      rw [hc.1]
      exact .parentheses hp h hc.2
    by_cases hb : t.kind = .openBrace
    · refine .eats (reading_primary_openBrace terminator hb) ?_
      refine (properties_obeys rest).map fun ts ps h => ?_
      obtain ⟨us, c, hf, hc, rfl⟩ := h
      exact .object hb hf hc
    exact .stuck_cons (reading_primary_other terminator hi hn hp hb) trivial start nofun
termination_by (tokens.length, 0)

theorem properties_obeys (tokens : List Token) :
    Obeys Braced terminator (fun ts => (properties terminator ts).reading) tokens := by
  match tokens with
  | [] =>
    have brace (c : Token) (hc : Complaint.closingBrace.expected = some c.kind) : Viable Braced [c] :=
      .of_phrase (braced_nil (Option.some.inj hc).symm)
    exact .stuck_nil (reading_properties_nil terminator) trivial
      (brace (sample .closeBrace) rfl).nil brace
  | t :: rest =>
    by_cases ht : t.kind = .closeBrace
    · exact .eats (reading_properties_closed terminator ht)
        (.stays (fun _ _ => rfl) (braced_nil ht))
    refine .congr_cons
      (S := fun ts => (property terminator ts).reading.bind (behindProperty terminator))
      (reading_properties_cons terminator ht) ?_
    refine (property_obeys (t :: rest)).bind (fun ts rest₁ p split hp => ?_)
      fun ts p hp => ⟨[sample .closeBrace], _, braced_last hp rfl⟩
    have comma (c : Token) (hc : Complaint.propertyEnd.expected = some c.kind) :
        Viable (fun us ps => Braced (ts ++ us) ps) [c] :=
      ⟨[sample .closeBrace], _, braced_cons hp (Option.some.inj hc).symm (braced_nil rfl)⟩
    have start := (comma (sample .comma) rfl).nil
    match rest₁ with
    | [] => exact .stuck_nil rfl trivial start comma
    | t₁ :: rest₂ =>
      by_cases hb : t₁.kind = .closeBrace
      · exact .eats (fun us => if_pos hb) (.stays (fun _ _ => rfl) (braced_last hp hb))
      by_cases hc : t₁.kind = .comma
      · have shorter := shorter_of_split split
        refine .eats (fun us => (if_neg hb).trans (if_pos hc)) ?_
        exact (properties_obeys rest₂).map fun us ps hs => braced_cons hp hc hs
      · exact .stuck_cons (fun us => (if_neg hb).trans (if_neg hc)) trivial start comma
termination_by (tokens.length, 1)

theorem property_obeys (tokens : List Token) :
    Obeys Property terminator (fun ts => (property terminator ts).reading) tokens := by
  have bare (ts : List Token) (k : Token) (hk : ts = [k] ∧ k.kind = .identifier) :
      Viable Property ts := hk.1 ▸ .of_phrase (.bare hk.2)
  refine .congr (fun us _ => reading_property terminator us) ?_
  refine (expect_obeys terminator .propertyKey trivial rfl tokens).bind
    (fun ts rest k split hk => ?_) bare
  obtain ⟨rfl, hk⟩ := hk
  have colon (c : Token) (hc : Complaint.propertyColon.expected = some c.kind) :
      Viable (fun us p => Property ([k] ++ us) p) [c] :=
    ⟨_, _, .valued hk (Option.some.inj hc).symm expression_sample⟩
  have start := (colon (sample .colon) rfl).nil
  match rest with
  | [] => exact .stuck_nil rfl trivial start colon
  | t :: rest₁ =>
    by_cases hb : t.kind = .comma ∨ t.kind = .closeBrace
    · exact .stays_cons (fun us => if_pos hb) (.bare hk)
    by_cases hc : t.kind = .colon
    · have shorter := shorter_of_split split
      refine .eats (fun us => (if_neg hb).trans (if_pos hc)) ?_
      exact (expression_obeys rest₁).map fun us n h => .valued hk hc h
    · exact .stuck_cons (fun us => (if_neg hb).trans (if_neg hc)) trivial start colon
termination_by (tokens.length, 0)

theorem product_obeys (tokens : List Token) :
    Obeys Product terminator (fun ts => (product terminator ts).reading) tokens := by
  refine .congr (fun us _ => reading_product terminator us) ?_
  refine (primary_obeys tokens).bind (fun ts rest left split hl => ?_)
    fun ts n h => .of_phrase (.primary h)
  have shorter : rest.length ≤ tokens.length := by simp [split]
  exact chain_obeys terminator (product_chain terminator)
    (fun _ _ _ _ _ hl ht hr => .join hl (isMultiplicative_iff.mp ht) hr) (.primary hl) rest
    fun us hu => primary_obeys us
termination_by (tokens.length, 1)

theorem sum_obeys (tokens : List Token) :
    Obeys Sum terminator (fun ts => (sum terminator ts).reading) tokens := by
  refine .congr (fun us _ => reading_sum terminator us) ?_
  refine (product_obeys tokens).bind (fun ts rest left split hl => ?_)
    fun ts n h => .of_phrase (.product h)
  have shorter : rest.length ≤ tokens.length := by simp [split]
  exact chain_obeys terminator (sum_chain terminator)
    (fun _ _ _ _ _ hl ht hr => .join hl (isAdditive_iff.mp ht) hr) (.product hl) rest
    fun us hu => product_obeys us
termination_by (tokens.length, 2)

theorem expression_obeys (tokens : List Token) :
    Obeys Expression terminator (fun ts => (expression terminator ts).reading) tokens := by
  refine .congr (fun us _ => reading_expression terminator us) ?_
  refine (sum_obeys tokens).bind (fun ts rest left split hl => ?_)
    fun ts n h => .of_phrase (.sum h)
  have here : Expression (ts ++ []) left := by simpa using .sum hl
  match rest with
  | [] => exact .stays_nil rfl here
  | t :: rest₁ =>
    by_cases ht : t.kind = .equals
    · have shorter := shorter_of_split split
      refine .eats (fun us => if_pos ht) ?_
      exact (expression_obeys rest₁).map fun us n h => .assignment hl ht h
    · exact .stays_cons (fun us => if_neg ht) here
termination_by (tokens.length, 3)

end

theorem object_obeys (tokens : List Token) :
    Obeys Primary terminator (fun ts => (object terminator ts).reading) tokens := by
  have closed (o : Token) (ho : o.kind = .openBrace) : Viable Primary [o] :=
    ⟨[sample .closeBrace], _, .object ho .none rfl⟩
  refine .congr (fun us _ => reading_object terminator us) ?_
  refine (expect_obeys terminator .openingBrace trivial rfl tokens).bind
    (fun ts rest o split ho => ?_) fun ts o ho => ho.1 ▸ closed o ho.2
  refine (properties_obeys terminator rest).map fun us ps h => ?_
  obtain ⟨vs, c, hf, hc, rfl⟩ := h
  rw [ho.1]
  exact .object ho.2 hf hc

def word (constant : Bool) : TokenKind := if constant then .constWord else .letWord

theorem declaration_valued {constant : Bool} {w i e s : Token} {ts : List Token} {n : Node}
    (hw : w.kind = word constant) (hi : i.kind = .identifier) (he : e.kind = .equals)
    (h : Expression ts n) (hs : s.kind = .semicolon) :
    Declaration (w :: i :: e :: (ts ++ [s])) (.declaration i.text (some n) constant) := by
  cases constant with
  | false => exact .mutable hw hi he h hs
  | true => exact .constant hw hi he h hs

theorem declaration_sample {constant : Bool} {w i e : Token} (hw : w.kind = word constant)
    (hi : i.kind = .identifier) (he : e.kind = .equals) :
    Declaration [w, i, e, sample .identifier, sample .semicolon]
      (.declaration i.text (some (.identifier "")) constant) :=
  declaration_valued hw hi he expression_sample rfl

theorem initializer_obeys {constant : Bool} {w i : Token} (hw : w.kind = word constant)
    (hi : i.kind = .identifier) (tokens : List Token) :
    Obeys (fun us n => Declaration (w :: i :: us) n) terminator
      (initializer terminator constant i) tokens := by
  refine (expect_obeys terminator .declarationEquals trivial rfl tokens).bind
    (fun ts rest e split he => ?_) fun ts e he => ?_
  · obtain ⟨rfl, he⟩ := he
    refine (expression_obeys terminator rest).bind (fun us rest₁ n split h => ?_) fun us n h => ?_
    · refine (expect_obeys terminator .declarationEnd trivial rfl rest₁).map fun vs s hs => ?_
      rw [hs.1]
      exact declaration_valued hw hi he h hs.2
    · exact ⟨[sample .semicolon], _, declaration_valued hw hi he h rfl⟩
  · rw [he.1]
    exact ⟨_, _, declaration_sample hw hi he.2⟩

theorem behindName_obeys {constant : Bool} {w i : Token} (hw : w.kind = word constant)
    (hi : i.kind = .identifier) (tokens : List Token) :
    Obeys (fun us n => Declaration (w :: i :: us) n) terminator
      (behindName terminator constant i) tokens := by
  have equals (e : Token) (he : some .equals = some e.kind) :
      Viable (fun us n => Declaration (w :: i :: us) n) [e] :=
    ⟨_, _, declaration_sample hw hi (Option.some.inj he).symm⟩
  have start := (equals (sample .equals) rfl).nil
  match tokens with
  | [] => exact .stuck_nil rfl trivial start equals
  | t :: rest =>
    by_cases ht : t.kind = .semicolon
    · cases constant with
      | true => exact .stuck_cons (fun us => if_pos ht) trivial start equals
      | false => exact .eats (fun us => if_pos ht) (.stays (fun _ _ => rfl) (.empty hw hi ht))
    · exact .congr_cons (fun us => if_neg ht) (initializer_obeys terminator hw hi (t :: rest))

theorem behindWord_obeys {constant : Bool} {w : Token} (hw : w.kind = word constant)
    (rest : List Token) :
    Obeys (fun us n => Declaration (w :: us) n) terminator
      (fun us => (expect terminator .declaredName us).reading.bind (behindName terminator constant))
      rest := by
  refine (expect_obeys terminator .declaredName trivial rfl rest).bind
    (fun ts rest₁ i split hi => ?_) fun ts i hi => ?_
  · rw [hi.1]
    exact behindName_obeys terminator hw hi.2 rest₁
  · rw [hi.1]
    exact ⟨_, _, declaration_sample (e := sample .equals) hw hi.2 rfl⟩

theorem declaration_obeys {constant : Bool} {w : Token} (hw : w.kind = word constant)
    (rest : List Token) :
    Obeys Declaration terminator (fun ts => (declaration terminator ts).reading) (w :: rest) := by
  have hc : (w.kind == .constWord) = constant := by cases constant <;> simp [hw, word]
  exact .eats (fun us => hc ▸ reading_declaration_cons terminator w us)
    (behindWord_obeys terminator hw rest)

theorem behindExpression_obeys {ts : List Token} {n : Node} (h : Expression ts n)
    (tokens : List Token) :
    Obeys (fun us m => Statement (ts ++ us) m) terminator (behindExpression n) tokens := by
  have here : Statement (ts ++ []) n := by simpa using .expression h
  match tokens with
  | [] => exact .stays_nil rfl here
  | t :: rest =>
    by_cases ht : t.kind = .semicolon
    · exact .eats (fun us => if_pos ht) (.stays (fun _ _ => rfl) (.closed h ht))
    · exact .stays_cons (fun us => if_neg ht) here

theorem statement_obeys (t : Token) (rest : List Token) :
    Obeys Statement terminator (fun ts => (statement terminator ts).reading) (t :: rest) := by
  by_cases ht : t.kind = .letWord ∨ t.kind = .constWord
  · refine .congr_cons (S := fun ts => (declaration terminator ts).reading)
      (reading_statement_word terminator ht) ?_
    have hw : ∃ constant, t.kind = word constant :=
      ht.elim (fun h => ⟨false, h⟩) fun h => ⟨true, h⟩
    obtain ⟨constant, hw⟩ := hw
    exact (declaration_obeys terminator hw rest).mono fun ts n h => .declaration h
  · refine .congr_cons (S := fun ts => (expression terminator ts).reading.bind behindExpression)
      (reading_statement_expression terminator ht) ?_
    exact (expression_obeys terminator (t :: rest)).bind
      (fun ts rest₁ n split h => behindExpression_obeys terminator h rest₁)
      fun ts n h => .of_phrase (.expression h)

theorem statements_obeys (tokens : List Token) :
    Obeys Statements terminator (fun ts => (statements terminator ts).reading) tokens := by
  match tokens with
  | [] => exact .stays_nil (reading_statements_nil terminator) .nil
  | t :: rest =>
    refine .congr_cons (S := fun ts => (statement terminator ts).reading.bind fun first rest₁ =>
      (statements terminator rest₁).reading.map (first :: ·)) (reading_statements_cons terminator t) ?_
    refine (statement_obeys terminator t rest).bind (fun ts rest₁ n split h => ?_)
      fun ts n h => ⟨[], _, .cons h .nil⟩
    obtain ⟨u, us, rfl, _⟩ := h.head
    have behind : rest = us ++ rest₁ := (List.cons.inj split).2
    have shorter : rest₁.length < (t :: rest).length :=
      Nat.lt_succ_of_le (length_le_of_split behind)
    exact (statements_obeys rest₁).map fun vs ns hs => .cons h hs
termination_by tokens.length
decreasing_by exact shorter

end LetLang.Grammar
