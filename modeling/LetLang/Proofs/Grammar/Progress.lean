import LetLang.Proofs.Grammar.Acceptance

namespace LetLang

def Token.Readable (tokens : List Token) : Prop :=
  ∀ t ∈ tokens, t.kind = .number → ∃ x, Number.ofText? t.text = some x

namespace Parser
open Grammar

variable {α β : Type} (terminator : Token)

def readers : List (Token → (tokens : List Token) → Step Node tokens.length) :=
  [statement, declaration, expression, sum, product, primary, object]

structure Reaches (tokens : List Token) (r : Reading α) : Prop where
  behind : r.2 <:+ tokens
  found : ∀ fault, r.1 = .error fault → ∃ c, fault = .unexpected c (r.2.head?.getD terminator)

variable {terminator}

theorem Reaches.stuck (c : Complaint) :
    Reaches terminator [] ((.error (.unexpected c terminator), []) : Reading α) := by
  refine ⟨List.suffix_rfl, ?_⟩
  rintro _ ⟨⟩
  exact ⟨c, rfl⟩

theorem reaches_of_obeys {D : List Token → α → Prop} {R : List Token → Reading α}
    {tokens : List Token} (h : Obeys D terminator R tokens) (readable : Token.Readable tokens) :
    Reaches terminator tokens (R tokens) := by
  cases hr : R tokens with
  | mk result rest =>
    cases result with
    | ok a =>
      obtain ⟨front, split, _⟩ := h.of_ok hr
      refine ⟨⟨front, split.symm⟩, ?_⟩
      rintro _ ⟨⟩
    | error fault =>
      obtain ⟨front, split, explained, _⟩ := h.of_error hr
      refine ⟨⟨front, split.symm⟩, ?_⟩
      rintro _ ⟨⟩
      cases fault with
      | unterminated => exact explained.elim
      | unexpected c found => exact ⟨c, by rw [explained.2.1]⟩
      | unreadable numeral =>
        obtain ⟨t, ht, number, rfl, unreadable⟩ := explained
        obtain ⟨x, hx⟩ := readable t (split ▸ List.mem_append_left rest ht) number
        rw [unreadable] at hx
        cases hx

theorem declaration_reaches {tokens : List Token} (readable : Token.Readable tokens) :
    Reaches terminator tokens (declaration terminator tokens).reading := by
  cases tokens with
  | nil =>
    rw [reading_declaration_nil]
    exact .stuck .declaredName
  | cons w rest =>
    have first : (sample (word (w.kind == .constWord))).kind = word (w.kind == .constWord) := rfl
    have obeys := behindWord_obeys terminator first rest
    have behind := reaches_of_obeys obeys fun t ht => readable t (List.mem_cons_of_mem w ht)
    rw [reading_declaration_cons]
    exact ⟨behind.behind.trans (List.suffix_cons w rest), behind.found⟩

theorem statement_reaches {tokens : List Token} (readable : Token.Readable tokens) :
    Reaches terminator tokens (statement terminator tokens).reading := by
  cases tokens with
  | nil =>
    rw [reading_statement_nil]
    exact .stuck .primary
  | cons t rest => exact reaches_of_obeys (statement_obeys terminator t rest) readable

theorem reaches {reader : Token → (tokens : List Token) → Step Node tokens.length}
    (h : reader ∈ readers) {tokens : List Token} (readable : Token.Readable tokens) :
    Reaches terminator tokens (reader terminator tokens).reading := by
  simp only [readers, List.mem_cons, List.not_mem_nil, or_false] at h
  rcases h with rfl | rfl | rfl | rfl | rfl | rfl | rfl
  · exact statement_reaches readable
  · exact declaration_reaches readable
  · exact reaches_of_obeys (expression_obeys terminator tokens) readable
  · exact reaches_of_obeys (sum_obeys terminator tokens) readable
  · exact reaches_of_obeys (product_obeys terminator tokens) readable
  · exact reaches_of_obeys (primary_obeys terminator tokens) readable
  · exact reaches_of_obeys (object_obeys terminator tokens) readable

def repeated (stops : List Token → Bool) (item : List Token → Reading α) :
    Nat → List Token → Option (Reading (List α))
  | 0, _ => none
  | rounds + 1, tokens =>
    if stops tokens then some (.ok [], tokens)
    else match item tokens with
      | (.error fault, rest) => some (.error fault, rest)
      | (.ok a, rest) => (repeated stops item rounds rest).map (Reading.map (a :: ·))

theorem repeated_closes {stops : List Token → Bool} {item : List Token → Reading α}
    {close : List Token → Reading β} {R : List Token → Reading (List α)}
    (consumes : ∀ tokens a rest, item tokens = (.ok a, rest) → rest.length < tokens.length)
    (stopped : ∀ tokens, stops tokens → R tokens = (close tokens).map fun _ => [])
    (going : ∀ tokens, stops tokens = false →
      R tokens = (item tokens).bind fun a rest => (R rest).map (a :: ·))
    {rounds : Nat} {tokens : List Token} (enough : tokens.length < rounds) :
    ∃ r, repeated stops item rounds tokens = some r ∧
      R tokens = r.bind fun as rest => (close rest).map fun _ => as := by
  induction rounds generalizing tokens with
  | zero => exact absurd enough (Nat.not_lt_zero _)
  | succ rounds ih =>
    rw [repeated]
    cases hs : stops tokens with
    | true => exact ⟨_, rfl, stopped tokens hs⟩
    | false =>
      rw [going tokens hs]
      cases hi : item tokens with
      | mk result rest =>
        cases result with
        | error fault => exact ⟨_, rfl, rfl⟩
        | ok a =>
          obtain ⟨r, ended, same⟩ := ih (Nat.lt_of_lt_of_le (consumes tokens a rest hi)
            (Nat.le_of_lt_succ enough))
          refine ⟨r.map (a :: ·), ?_, ?_⟩
          · simp only [Bool.false_eq_true, if_false, ended, Option.map_some]
          rw [Reading.bind_ok, same]
          obtain ⟨fault | as, us⟩ := r
          · rfl
          · rw [Reading.bind_ok, Reading.map_ok, Reading.bind_ok]
            rcases close us with ⟨_ | _, _⟩ <;> rfl

theorem statements_repeated (tokens : List Token) :
    repeated List.isEmpty (fun ts => (statement terminator ts).reading) (tokens.length + 1) tokens =
      some (statements terminator tokens).reading := by
  have consumes : ∀ (ts : List Token) n rest, (statement terminator ts).reading = (.ok n, rest) →
      rest.length < ts.length := fun _ _ _ hr => Step.shorter_of_reading hr
  have stopped : ∀ ts : List Token, ts.isEmpty →
      (statements terminator ts).reading = (.ok [], ts) := by
    intro ts stop
    rw [List.isEmpty_iff.mp stop, reading_statements_nil]
  have going : ∀ ts : List Token, ts.isEmpty = false → (statements terminator ts).reading =
      (statement terminator ts).reading.bind fun n rest =>
        (statements terminator rest).reading.map (n :: ·) := by
    intro ts go
    obtain ⟨t, ts, rfl⟩ := List.exists_cons_of_ne_nil (List.isEmpty_eq_false_iff.mp go)
    exact reading_statements_cons terminator t ts
  let close : List Token → Reading Unit := fun ts => (.ok (), ts)
  obtain ⟨r, ended, same⟩ : ∃ r, repeated List.isEmpty (fun ts => (statement terminator ts).reading)
      (tokens.length + 1) tokens = some r ∧
      (statements terminator tokens).reading =
        r.bind fun ns rest => (close rest).map fun _ => ns :=
    repeated_closes consumes stopped going (Nat.lt_succ_self tokens.length)
  rw [ended, same]
  obtain ⟨fault | as, us⟩ := r <;> rfl

def closes : List Token → Bool
  | [] => true
  | t :: _ => t.kind == .closeBrace

variable (terminator) in
def behindEntry (p : Node) (tokens : List Token) : Reading Node :=
  if tokens.head?.map Token.kind = some .closeBrace then (.ok p, tokens)
  else (expect terminator .propertyEnd tokens).reading.map fun _ => p

variable (terminator) in
def entry (tokens : List Token) : Reading Node :=
  (property terminator tokens).reading.bind (behindEntry terminator)

theorem behindEntry_behind {p q : Node} {tokens rest : List Token}
    (h : behindEntry terminator p tokens = (.ok q, rest)) : rest.length ≤ tokens.length := by
  unfold behindEntry at h
  split at h
  · cases h
    exact Nat.le_refl _
  · obtain ⟨t, us, hr, same⟩ := Reading.of_bind_ok h
    cases same
    exact Nat.le_of_lt (Step.shorter_of_reading hr)

theorem entry_consumes (tokens : List Token) (p : Node) (rest : List Token)
    (h : entry terminator tokens = (.ok p, rest)) : rest.length < tokens.length := by
  obtain ⟨q, us, hr, behind⟩ := Reading.of_bind_ok h
  exact Nat.lt_of_le_of_lt (behindEntry_behind behind) (Step.shorter_of_reading hr)

theorem behindProperty_eq (p : Node) (tokens : List Token) :
    behindProperty terminator p tokens =
      (behindEntry terminator p tokens).bind fun q rest =>
        (properties terminator rest).reading.map (q :: ·) := by
  cases tokens with
  | nil => rfl
  | cons t rest =>
    by_cases hb : t.kind = .closeBrace
    · rw [behindProperty, if_pos hb, behindEntry, if_pos (by rw [← hb]; rfl), Reading.bind_ok,
        reading_properties_closed terminator hb, Reading.map_ok]
    · have open_ : ¬ (t :: rest).head?.map Token.kind = some .closeBrace :=
        fun closed => hb (Option.some.inj closed)
      rw [behindProperty, if_neg hb, behindEntry, if_neg open_, reading_expect_cons]
      by_cases hc : t.kind = .comma
      · have expected : Complaint.propertyEnd.expected = some t.kind := congrArg some hc.symm
        rw [if_pos hc, if_pos expected, Reading.map_ok, Reading.bind_ok]
      · have other : ¬ Complaint.propertyEnd.expected = some t.kind :=
          fun comma => hc (Option.some.inj comma).symm
        rw [if_neg hc, if_neg other]
        rfl

theorem properties_repeated (tokens : List Token) :
    ∃ r, repeated closes (entry terminator) (tokens.length + 1) tokens = some r ∧
      (properties terminator tokens).reading =
        r.bind fun ps rest => (expect terminator .closingBrace rest).reading.map fun _ => ps := by
  refine repeated_closes (R := fun ts => (properties terminator ts).reading) entry_consumes ?_ ?_
    (Nat.lt_succ_self tokens.length)
  · intro ts stop
    cases ts with
    | nil => exact reading_properties_nil terminator
    | cons t ts =>
      have hb : t.kind = .closeBrace := by simpa [closes] using stop
      have expected : Complaint.closingBrace.expected = some t.kind := congrArg some hb.symm
      rw [reading_properties_closed terminator hb, reading_expect_cons, if_pos expected,
        Reading.map_ok]
  · intro ts go
    cases ts with
    | nil => cases go
    | cons t ts =>
      have hb : t.kind ≠ .closeBrace := by simpa [closes] using go
      rw [reading_properties_cons terminator hb, entry]
      rcases (property terminator (t :: ts)).reading with ⟨fault | p, us⟩
      · rfl
      · exact behindProperty_eq p us

end Parser

namespace TokenStream

def skip (s : TokenStream) (count : Nat) : TokenStream := { s with tokens := s.tokens.drop count }

@[simp] theorem skip_terminator (s : TokenStream) (count : Nat) :
    (s.skip count).terminator = s.terminator := rfl

@[simp] theorem skip_tokens (s : TokenStream) (count : Nat) :
    (s.skip count).tokens = s.tokens.drop count := rfl

theorem eat_skip (s : TokenStream) (p : Nat) :
    (s.skip p).eat.2 = s.skip (min (p + 1) s.tokens.length) := by
  simp only [eat, skip, List.tail_drop, TokenStream.mk.injEq, and_true]
  rcases Nat.lt_or_ge p s.tokens.length with h | h
  · rw [Nat.min_eq_left h]
  · rw [Nat.min_eq_right (Nat.le_succ_of_le h), List.drop_length, List.drop_of_length_le]
    exact Nat.le_succ_of_le h

theorem eq_skip {s : TokenStream} {p : Nat} {rest : List Token} (h : rest <:+ s.tokens.drop p) :
    { s with tokens := rest } = s.skip (s.tokens.length - rest.length) := by
  have behind := List.suffix_iff_eq_drop.mp (h.trans (List.drop_suffix p s.tokens))
  rw [skip, ← behind]

theorem getElem?_skip {ts us : List Token} {e : Token} {p : Nat} (h : p ≤ ts.length) :
    (ts ++ e :: us)[p]? = some ((⟨ts, e⟩ : TokenStream).skip p).current := by
  rw [current, skip, List.head?_drop]
  rcases Nat.lt_or_eq_of_le h with h | rfl
  · rw [List.getElem?_append_left h, List.getElem?_eq_getElem h, Option.getD_some]
  · simp

end TokenStream

namespace Parser
open Grammar TokenStream

theorem readWith_skip {reader : Token → (tokens : List Token) → Step Node tokens.length}
    (hr : reader ∈ readers) {s : TokenStream} (readable : Token.Readable s.tokens) {p : Nat}
    (hp : p ≤ s.tokens.length) :
    ∃ result q, readWith reader (s.skip p) = (result, s.skip q) ∧
      p ≤ q ∧ q ≤ s.tokens.length ∧ (∀ n, result = .ok n → p < q) ∧
      ∀ fault, result = .error fault → ∃ c, fault = .unexpected c (s.skip q).current := by
  have unread : Token.Readable (s.tokens.drop p) := fun t ht => readable t (List.mem_of_mem_drop ht)
  have reached : Reaches s.terminator (s.tokens.drop p)
      (reader s.terminator (s.tokens.drop p)).reading := reaches hr unread
  rcases hread : (reader s.terminator (s.tokens.drop p)).reading with ⟨result, rest⟩
  rw [hread] at reached
  have left : rest.length ≤ s.tokens.length - p := List.length_drop ▸ reached.behind.length_le
  have place := eq_skip reached.behind
  refine ⟨result, s.tokens.length - rest.length, ?_, by omega, Nat.sub_le _ _, ?_, ?_⟩
  · rw [readWith_eq, skip_terminator, skip_tokens, hread, ← place]
  · rintro n rfl
    have shorter := Step.shorter_of_reading hread
    rw [List.length_drop] at shorter
    omega
  · intro fault failed
    obtain ⟨c, hc⟩ := reached.found fault failed
    exact ⟨c, by rw [hc, ← place, current]⟩

theorem readers_progress {tokens : List Token} (hend : Terminated tokens)
    (readable : Token.Readable tokens) :
    ∃ s, ofTokens? tokens = some s ∧ tokens.findIdx? isEnd = some s.tokens.length ∧
      ∀ p ≤ s.tokens.length,
        tokens[p]? = some (s.skip p).current ∧
        (s.skip p).eat.2 = s.skip (min (p + 1) s.tokens.length) ∧
        (∀ reader ∈ readers, ∃ result q, readWith reader (s.skip p) = (result, s.skip q) ∧
          p ≤ q ∧ q ≤ s.tokens.length ∧ (∀ n, result = .ok n → p < q) ∧
          ∀ fault, result = .error fault →
            ∃ c found, fault = .unexpected c found ∧ tokens[q]? = some found) ∧
        repeated List.isEmpty (fun ts => (statement s.terminator ts).reading)
            (s.tokens.length - p + 1) (s.tokens.drop p) =
          some (statements s.terminator (s.tokens.drop p)).reading ∧
        ∃ ended, repeated closes (entry s.terminator) (s.tokens.length - p + 1) (s.tokens.drop p) =
            some ended ∧
          (properties s.terminator (s.tokens.drop p)).reading = ended.bind fun ps rest =>
            (expect s.terminator .closingBrace rest).reading.map fun _ => ps := by
  obtain ⟨ts, e, us, rfl, inner, he⟩ := hend.split
  have unread : Token.Readable ts := fun t ht => readable t (List.mem_append_left _ ht)
  refine ⟨⟨ts, e⟩, ofTokens?_eq inner he hend, ?_, fun p hp => ?_⟩
  · have ahead : ts.findIdx? isEnd = none :=
      List.findIdx?_eq_none_iff.mpr fun t ht => by simpa [isEnd] using inner t ht
    rw [List.findIdx?_append, ahead, Option.none_or, List.findIdx?_cons, if_pos (isEnd_iff.mpr he),
      Option.map_some, Nat.zero_add]
  · have left : (ts.drop p).length = ts.length - p := List.length_drop
    refine ⟨getElem?_skip hp, eat_skip _ p, fun reader hr => ?_, ?_, ?_⟩
    · obtain ⟨result, q, hread, from_, until_, further, found⟩ := readWith_skip hr unread hp
      refine ⟨result, q, hread, from_, until_, further, fun fault failed => ?_⟩
      obtain ⟨c, rfl⟩ := found fault failed
      exact ⟨c, _, rfl, getElem?_skip until_⟩
    · exact left ▸ statements_repeated _
    · exact left ▸ properties_repeated _

def unclosedObject : List Token :=
  [⟨.openBrace, "\x7b", ⟨1, 1⟩⟩, ⟨.identifier, "a", ⟨1, 2⟩⟩, ⟨.colon, ":", ⟨1, 3⟩⟩,
    ⟨.number, "2", ⟨1, 4⟩⟩]

def severed : List Token :=
  unclosedObject ++ [sample .endOfInput, sample .closeBrace, sample .endOfInput]

theorem reading_unclosedObject {x : Number} (hx : Number.ofText? "2" = some x)
    (terminator : Token) : (object terminator unclosedObject).reading =
      (.error (.unexpected .propertyEnd terminator), []) := by
  have number : Expression [⟨.number, "2", ⟨1, 4⟩⟩] (.number x) :=
    .sum (.product (.primary (.number rfl hx)))
  have value := expression_reads terminator number [] trivial
  rw [List.append_nil] at value
  rw [unclosedObject, reading_object, reading_expect_cons, if_pos (by rfl), Reading.bind_ok,
    reading_properties_cons terminator (by decide), reading_property, reading_expect_cons,
    if_pos (by rfl), Reading.bind_ok, behindKey, if_neg (by decide), if_pos (by rfl), value]
  rfl

theorem severed_progress :
    Terminated severed ∧ Token.Readable severed ∧
    ∃ s, ofTokens? severed = some s ∧ s.tokens.length = 4 ∧
      readWith object s =
        (.error (.unexpected .propertyEnd (sample .endOfInput)), s.skip 4) ∧
      ∀ p ≤ 4, ∀ reader ∈ readers, ∃ result q,
        readWith reader (s.skip p) = (result, s.skip q) ∧ p ≤ q ∧ q ≤ 4 := by
  have hend : Terminated severed := ⟨_, rfl, rfl⟩
  have two : (Number.ofText? "2").isSome := by decide
  obtain ⟨x, hx⟩ := Option.isSome_iff_exists.mp two
  have readable : Token.Readable severed := by
    intro t ht number
    simp only [severed, unclosedObject, List.cons_append, List.nil_append, List.mem_cons,
      List.not_mem_nil, or_false] at ht
    rcases ht with rfl | rfl | rfl | rfl | rfl | rfl | rfl <;>
      first | exact ⟨x, hx⟩ | cases number
  obtain ⟨s, hs, -, further⟩ := readers_progress hend readable
  have split : ofTokens? severed = some ⟨unclosedObject, sample .endOfInput⟩ := by rfl
  obtain rfl := Option.some.inj (split.symm.trans hs)
  refine ⟨hend, readable, _, split, rfl, ?_, fun p hp reader hr => ?_⟩
  · rw [readWith_eq, reading_unclosedObject hx]
    rfl
  · obtain ⟨_, _, progress, _⟩ := further p hp
    obtain ⟨result, q, hread, from_, until_, _⟩ := progress reader hr
    exact ⟨result, q, hread, from_, until_⟩

end Parser

end LetLang
