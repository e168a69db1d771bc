import LetLang.Proofs.Grammar.Acceptance

namespace LetLang

def Parser.cursor (tokens : List Token) : Nat :=
  match TokenStream.ofTokens? tokens with
  | none => 0
  | some s => s.tokens.length - (statements s.terminator s.tokens).reading.2.length

namespace Grammar
open LetLang.Parser TokenStream

def Completable (ts : List Token) : Prop :=
  ∃ us, ∀ e : Token, e.kind = .endOfInput → ∃ n, program (ts ++ us ++ [e]) = .ok n

theorem Completable.of_viable {ts : List Token} (h : Viable Statements ts) : Completable ts := by
  obtain ⟨us, ns, h⟩ := h
  exact ⟨us, fun e he =>
    ⟨_, (program_iff_of_split h.inner he (terminated_concat _ he)).mpr (.body h)⟩⟩

theorem statements_of_program {tokens : List Token} {n : Node} (h : program tokens = .ok n) :
    ∃ ns, Statements (beforeEnd tokens) ns := by
  have hend := program_terminated h
  obtain ⟨ts, e, us, rfl, hts, he⟩ := hend.split
  obtain ⟨hs⟩ := (program_iff_of_split hts he hend).mp h
  exact ⟨_, (beforeEnd_append_cons hts he us).symm ▸ hs⟩

theorem not_accepted_of_blocked {ts : List Token} {t : Token} (hts : Inner ts)
    (ht : t.kind ≠ .endOfInput) (h : ¬ Viable Statements (ts ++ [t])) (us : List Token) (n : Node) :
    program (ts ++ t :: us) ≠ .ok n := by
  intro hn
  obtain ⟨ns, hs⟩ := statements_of_program hn
  have hi : Inner (ts ++ [t]) := hts.append (.cons rfl ht .nil)
  rw [List.append_cons, beforeEnd_append hi] at hs
  exact h ⟨_, _, hs⟩

theorem not_accepted_of_unfinished {ts : List Token} {e : Token} (hts : Inner ts)
    (he : e.kind = .endOfInput) (h : ∀ ns, ¬ Statements ts ns) (us : List Token) (n : Node) :
    program (ts ++ e :: us) ≠ .ok n := by
  intro hn
  obtain ⟨ns, hs⟩ := statements_of_program hn
  rw [beforeEnd_append_cons hts he] at hs
  exact h ns hs

theorem not_statements_of_error {terminator : Token} {ts rest : List Token} {fault : ParseFault}
    (h : (statements terminator ts).reading = (.error fault, rest)) (ns : List Node) :
    ¬ Statements ts ns := by
  intro hs
  rw [statements_reads terminator hs] at h
  cases h

theorem cursor_eq {ts rest us : List Token} {e : Token} {r : Except ParseFault (List Node)}
    (hts : Inner (ts ++ rest)) (he : e.kind = .endOfInput)
    (hend : Terminated (ts ++ rest ++ e :: us))
    (h : (statements e (ts ++ rest)).reading = (r, rest)) :
    cursor (ts ++ rest ++ e :: us) = ts.length := by
  simp only [cursor, ofTokens?_eq hts he hend, h, List.length_append, Nat.add_sub_cancel]

theorem cursor_lt {tokens : List Token} (hend : Terminated tokens) :
    cursor tokens < tokens.length := by
  obtain ⟨ts, e, us, rfl, hts, he⟩ := hend.split
  simp only [cursor, ofTokens?_eq hts he hend, List.length_append, List.length_cons]
  omega

theorem program_error_split {tokens : List Token} (hend : Terminated tokens) {fault : ParseFault}
    (h : program tokens = .error fault) :
    ∃ ts rest e us, tokens = ts ++ rest ++ e :: us ∧ Inner (ts ++ rest) ∧
      e.kind = .endOfInput ∧ cursor tokens = ts.length ∧ Explains Statements e ts rest fault ∧
      ∀ us, us.head? = rest.head? → (statements e (ts ++ us)).reading = (.error fault, us) := by
  obtain ⟨ts, e, us, rfl, hts, he⟩ := hend.split
  have hr : (statements e ts).reading.1 = .error fault := by
    rw [← body_eq hts he hend]
    exact program_eq_error_iff.mp h
  rcases hread : (statements e ts).reading with ⟨r, rest⟩
  obtain rfl : r = .error fault := by rwa [hread] at hr
  obtain ⟨ps, rfl, explained, decided⟩ := (statements_obeys e ts).of_error hread
  exact ⟨ps, rest, e, us, rfl, hts, he, cursor_eq hts he hend hread, explained, decided⟩

theorem found_at {ts rest us : List Token} {e found : Token} (hf : found = rest.head?.getD e) :
    (ts ++ rest ++ e :: us)[ts.length]? = some found := by
  cases rest <;> simp [hf]

theorem program_error_found {tokens : List Token} (hend : Terminated tokens)
    (hn : ∀ t ∈ tokens, t.kind = .number → ∃ x, Number.ofText? t.text = some x)
    {fault : ParseFault} (h : program tokens = .error fault) :
    ∃ c found, fault = .unexpected c found ∧ Native c ∧
      tokens[cursor tokens]? = some found := by
  obtain ⟨ts, rest, e, us, rfl, _, _, hc, explained, _⟩ := program_error_split hend h
  cases fault with
  | unterminated => cases explained
  | unexpected c found => exact ⟨c, found, rfl, explained.1, hc ▸ found_at explained.2.1⟩
  | unreadable numeral =>
    obtain ⟨t, hm, hk, rfl, hx⟩ := explained
    obtain ⟨x, hr⟩ := hn t (List.mem_append_left _ (List.mem_append_left _ hm)) hk
    rw [hx] at hr
    cases hr

theorem not_accepted_at {ts rest us : List Token} {e t : Token} {fault : ParseFault}
    (hts : Inner (ts ++ rest)) (ht : rest.head? = some t ∨ rest = [] ∧ t.kind = .endOfInput)
    (decided : ∀ us, us.head? = rest.head? →
      (statements e (ts ++ us)).reading = (.error fault, us)) (n : Node) :
    program (ts ++ t :: us) ≠ .ok n := by
  have hi : Inner ts := fun u hu => hts u (List.mem_append_left rest hu)
  rcases ht with ht | ⟨rfl, ht⟩
  · have hk : t.kind ≠ .endOfInput := hts t (List.mem_append_right ts (List.mem_of_head? ht))
    refine not_accepted_of_blocked hi hk (fun hv => ?_) us n
    obtain ⟨vs, ns, hs⟩ := hv
    rw [List.append_assoc] at hs
    exact not_statements_of_error (decided ([t] ++ vs) ht.symm) ns hs
  · have hd := decided [] rfl
    rw [List.append_nil] at hd
    exact not_accepted_of_unfinished hi ht (not_statements_of_error hd) us n

theorem program_error_earliest {tokens : List Token} (hend : Terminated tokens) {c : Complaint}
    {found : Token} (h : program tokens = .error (.unexpected c found)) :
    tokens[cursor tokens]? = some found ∧
    Completable (tokens.take (cursor tokens)) ∧
    (∀ us n, program (tokens.take (cursor tokens + 1) ++ us) ≠ .ok n) ∧
    (found.kind = .endOfInput → ∀ e : Token, e.kind = .endOfInput →
      ∀ us n, program (tokens.take (cursor tokens) ++ e :: us) ≠ .ok n) ∧
    (∀ t, c.expected = some t.kind → Completable (tokens.take (cursor tokens) ++ [t])) := by
  obtain ⟨ps, rest, e, us, rfl, hts, he, hc, ⟨_, hf, hv, hx⟩, decided⟩ :=
    program_error_split hend h
  have htake : (ps ++ rest ++ e :: us).take ps.length = ps := by
    rw [List.append_assoc, List.take_left]
  have hhead : rest.head? = some found ∨ rest = [] ∧ found.kind = .endOfInput := by
    cases rest with
    | nil => exact .inr ⟨rfl, hf ▸ he⟩
    | cons t rest => exact .inl (congrArg some hf.symm)
  rw [hc, List.take_add_one, htake, found_at hf, Option.toList_some]
  refine ⟨rfl, .of_viable hv, fun vs n => ?_, fun hk e' he' vs n => ?_, fun t ht => ?_⟩
  · rw [List.append_assoc]
    exact not_accepted_at hts hhead decided n
  · refine not_accepted_at hts (hhead.imp (fun ht => absurd hk ?_) fun hr => ⟨hr.1, he'⟩) decided n
    exact hts found (List.mem_append_right ps (List.mem_of_head? ht))
  · exact .of_viable (hx t ht)

def unclosed : List Token := [⟨.openParen, "(", ⟨1, 1⟩⟩, ⟨.identifier, "x", ⟨1, 2⟩⟩]

theorem unclosed_error_earliest :
    program (unclosed ++ [sample .endOfInput]) =
      .error (.unexpected .closingParen (sample .endOfInput)) ∧
    Completable unclosed ∧
    (∀ us n, program (unclosed ++ sample .endOfInput :: us) ≠ .ok n) ∧
    Completable (unclosed ++ [sample .closeParen]) := by
  have stuck : (statements (sample .endOfInput) unclosed).reading =
      (.error (.unexpected .closingParen (sample .endOfInput)), []) := by
    have name : Expression [⟨.identifier, "x", ⟨1, 2⟩⟩] (.identifier "x") :=
      .sum (.product (.primary (.identifier rfl)))
    have inside := expression_reads (sample .endOfInput) name [] trivial
    rw [List.append_nil] at inside
    rw [unclosed, reading_statements_cons, reading_statement_expression _ (by decide),
      reading_expression, reading_sum, reading_product, reading_primary_openParen _ rfl, inside]
    rfl
  have hend : Terminated (unclosed ++ [sample .endOfInput]) := terminated_concat unclosed rfl
  have inner : Inner unclosed := .cons rfl nofun (.cons rfl nofun .nil)
  have fault : program (unclosed ++ [sample .endOfInput]) =
      .error (.unexpected .closingParen (sample .endOfInput)) := by
    rw [program_eq_error_iff, body_eq inner rfl hend, stuck]
  have place : cursor (unclosed ++ [sample .endOfInput]) = 2 := by
    rw [← List.append_nil unclosed] at inner stuck hend ⊢
    exact cursor_eq inner rfl hend stuck
  obtain ⟨_, hv, _, hb, hx⟩ := program_error_earliest hend fault
  rw [place] at hv hb hx
  exact ⟨fault, hv, hb rfl _ rfl, hx _ rfl⟩

end Grammar

end LetLang
