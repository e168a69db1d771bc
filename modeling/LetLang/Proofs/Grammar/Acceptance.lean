import LetLang.Proofs.Grammar.Completeness
import LetLang.Proofs.Grammar.Soundness

namespace LetLang.Grammar
open LetLang.Parser TokenStream

def Terminated (tokens : List Token) : Prop :=
  ∃ last, tokens.getLast? = some last ∧ last.kind = .endOfInput

def beforeEnd (tokens : List Token) : List Token := tokens.takeWhile (!isEnd ·)

theorem isEnd_iff {t : Token} : isEnd t ↔ t.kind = .endOfInput := by
  simp [isEnd]

theorem terminated_concat (ts : List Token) {e : Token} (he : e.kind = .endOfInput) :
    Terminated (ts ++ [e]) :=
  ⟨e, by simp, he⟩

theorem beforeEnd_append {ts : List Token} (hts : Inner ts) (us : List Token) :
    beforeEnd (ts ++ us) = ts ++ beforeEnd us :=
  List.takeWhile_append_of_pos (by simpa [isEnd, Inner] using hts)

theorem beforeEnd_append_cons {ts : List Token} (hts : Inner ts) {e : Token}
    (he : e.kind = .endOfInput) (us : List Token) : beforeEnd (ts ++ e :: us) = ts := by
  rw [beforeEnd_append hts, beforeEnd, List.takeWhile_cons_of_neg (by simp [isEnd, he]),
    List.append_nil]

theorem find?_first_end {ts : List Token} (hts : Inner ts) {e : Token}
    (he : e.kind = .endOfInput) (us : List Token) : (ts ++ e :: us).find? isEnd = some e := by
  rw [List.find?_append, List.find?_eq_none.mpr (fun t ht => mt isEnd_iff.mp (hts t ht)),
    Option.none_or, List.find?_cons_of_pos (isEnd_iff.mpr he)]

theorem Terminated.split {tokens : List Token} (hend : Terminated tokens) :
    ∃ ts e us, tokens = ts ++ e :: us ∧ Inner ts ∧ e.kind = .endOfInput := by
  obtain ⟨last, hl, hk⟩ := hend
  have hf : (tokens.find? isEnd).isSome :=
    List.find?_isSome.mpr ⟨last, List.mem_of_getLast? hl, isEnd_iff.mpr hk⟩
  obtain ⟨e, he⟩ := Option.isSome_iff_exists.mp hf
  obtain ⟨hp, ts, us, hs, hts⟩ := List.find?_eq_some_iff_append.mp he
  refine ⟨ts, e, us, hs, fun t ht hk => ?_, isEnd_iff.mp hp⟩
  simpa [isEnd, hk] using hts t ht

theorem ofTokens?_eq {ts : List Token} (hts : Inner ts) {e : Token}
    (he : e.kind = .endOfInput) {us : List Token} (hend : Terminated (ts ++ e :: us)) :
    ofTokens? (ts ++ e :: us) = some ⟨ts, e⟩ := by
  obtain ⟨last, hl, hk⟩ := hend
  have hb : (ts ++ e :: us).takeWhile (!isEnd ·) = ts := beforeEnd_append_cons hts he us
  simp only [ofTokens?, hl, find?_first_end hts he us, hb, if_pos (isEnd_iff.mpr hk)]

theorem ofTokens?_eq_none {tokens : List Token} (hend : ¬ Terminated tokens) :
    ofTokens? tokens = none := by
  cases hl : tokens.getLast? with
  | none => simp [ofTokens?, hl]
  | some last =>
    have hk : ¬ isEnd last := fun h => hend ⟨last, hl, isEnd_iff.mp h⟩
    simp only [ofTokens?, hl]
    split <;> simp_all

theorem body_eq {ts : List Token} (hts : Inner ts) {e : Token}
    (he : e.kind = .endOfInput) {us : List Token} (hend : Terminated (ts ++ e :: us)) :
    body (ts ++ e :: us) = (statements e ts).reading.1 := by
  simp only [body, ofTokens?_eq hts he hend]
  split <;> simp [*]

theorem statements_rest (terminator : Token) (tokens : List Token) {ns : List Node}
    {rest : List Token} (hr : (statements terminator tokens).reading = (.ok ns, rest)) :
    rest = [] := by
  match tokens with
  | [] =>
    rw [reading_statements_nil] at hr
    cases hr
    rfl
  | t :: us =>
    rw [reading_statements_cons] at hr
    obtain ⟨first, rest₁, hf, hr⟩ := Reading.of_bind_ok hr
    obtain ⟨ms, rest₂, hm, hr⟩ := Reading.of_bind_ok hr
    have shorter := Step.shorter_of_reading hf
    cases hr
    exact statements_rest terminator rest₁ hm
termination_by tokens.length
decreasing_by exact shorter

theorem statements_reading_iff (terminator : Token) {ts : List Token} {ns : List Node} :
    (statements terminator ts).reading.1 = .ok ns ↔ Statements ts ns := by
  constructor
  · intro h
    have hr : (statements terminator ts).reading = (.ok ns, (statements terminator ts).reading.2) :=
      Prod.ext h rfl
    obtain ⟨us, hs, hd⟩ := (statements_obeys terminator ts).of_ok hr
    rw [statements_rest terminator ts hr, List.append_nil] at hs
    exact hs ▸ hd
  · intro h
    rw [statements_reads terminator h]

theorem Statements.unique {ts : List Token} {ns ms : List Node} (h : Statements ts ns)
    (h' : Statements ts ms) : ns = ms := by
  have hr := (statements_reads (sample .endOfInput) h).symm.trans (statements_reads _ h')
  cases hr
  rfl

theorem program_eq_ok_iff {tokens : List Token} {n : Node} :
    program tokens = .ok n ↔ ∃ ns, body tokens = .ok ns ∧ n = .program ns := by
  rw [program]
  cases body tokens with
  | error fault => exact ⟨nofun, nofun⟩
  | ok ns =>
    constructor
    · rintro ⟨⟩
      exact ⟨ns, rfl, rfl⟩
    · rintro ⟨_, ⟨⟩, rfl⟩
      rfl

theorem program_eq_error_iff {tokens : List Token} {fault : ParseFault} :
    program tokens = .error fault ↔ body tokens = .error fault := by
  rw [program]
  cases body tokens with
  | error fault => exact ⟨fun h => by cases h; rfl, fun h => by cases h; rfl⟩
  | ok ns => exact ⟨nofun, nofun⟩

theorem program_terminated {tokens : List Token} {n : Node} (h : program tokens = .ok n) :
    Terminated tokens := by
  by_cases hend : Terminated tokens
  · exact hend
  · rw [program_eq_ok_iff, body, ofTokens?_eq_none hend] at h
    obtain ⟨_, ⟨⟩, _⟩ := h

theorem program_iff_of_split {ts us : List Token} {e : Token} {n : Node}
    (hts : Inner ts) (he : e.kind = .endOfInput)
    (hend : Terminated (ts ++ e :: us)) : program (ts ++ e :: us) = .ok n ↔ Program ts n := by
  rw [program_eq_ok_iff, body_eq hts he hend]
  constructor
  · rintro ⟨ns, h, rfl⟩
    exact .body ((statements_reading_iff e).mp h)
  · rintro ⟨h⟩
    exact ⟨_, (statements_reading_iff e).mpr h, rfl⟩

theorem program_behind_end {ts us vs : List Token} {e : Token} (he : e.kind = .endOfInput)
    (hu : Terminated (ts ++ e :: us)) (hv : Terminated (ts ++ e :: vs)) :
    program (ts ++ e :: us) = program (ts ++ e :: vs) := by
  -- the first end may stand in front of `e`, and then more than `us` and `vs` is left unread
  obtain ⟨as, f, bs, hs, has, hf⟩ := (terminated_concat ts he).split
  have hall : ∀ ws, ∃ xs, ts ++ e :: ws = as ++ f :: xs := fun ws =>
    ⟨bs ++ ws, by rw [List.append_cons, hs]; simp⟩
  obtain ⟨xs, hx⟩ := hall us
  obtain ⟨ys, hy⟩ := hall vs
  rw [hx] at hu ⊢
  rw [hy] at hv ⊢
  rw [program, program, body_eq has hf hu, body_eq has hf hv]

theorem program_accepts_grammar {tokens : List Token} (hend : Terminated tokens) :
    (∀ n, program tokens = .ok n ↔ Program (beforeEnd tokens) n) ∧
    (∀ ts n m, Program ts n → Program ts m → n = m) ∧
    (∀ ts e us vs, tokens = ts ++ e :: us → e.kind = .endOfInput → Terminated (ts ++ e :: vs) →
      program (ts ++ e :: vs) = program tokens) := by
  refine ⟨fun n => ?_, ?_, ?_⟩
  · obtain ⟨ts, e, us, rfl, hts, he⟩ := hend.split
    rw [beforeEnd_append_cons hts he us, program_iff_of_split hts he hend]
  · rintro ts _ _ ⟨h⟩ ⟨h'⟩
    rw [h.unique h']
  · rintro ts e us vs rfl he hv
    exact program_behind_end he hv hend

def sampleAssignment : List Token :=
  [⟨.identifier, "x", ⟨1, 1⟩⟩, ⟨.equals, "=", ⟨1, 3⟩⟩, ⟨.identifier, "y", ⟨1, 5⟩⟩]

theorem sampleAssignment_accepted :
    Terminated (sampleAssignment ++ [sample .endOfInput]) ∧
    program (sampleAssignment ++ [sample .endOfInput]) =
      .ok (.program [.assignment (.identifier "x") (.identifier "y")]) ∧
    ∀ n, Program sampleAssignment n →
      n = .program [.assignment (.identifier "x") (.identifier "y")] := by
  have hend : Terminated (sampleAssignment ++ [sample .endOfInput]) := terminated_concat _ rfl
  obtain ⟨accepts, unique, _⟩ := program_accepts_grammar hend
  have left : Sum [⟨.identifier, "x", ⟨1, 1⟩⟩] (.identifier "x") :=
    .product (.primary (.identifier rfl))
  have right : Expression [⟨.identifier, "y", ⟨1, 5⟩⟩] (.identifier "y") :=
    .sum (.product (.primary (.identifier rfl)))
  have derived : Program sampleAssignment
      (.program [.assignment (.identifier "x") (.identifier "y")]) :=
    .body (.cons (.expression (.assignment left (t := ⟨.equals, "=", ⟨1, 3⟩⟩) rfl right)) .nil)
  exact ⟨hend, (accepts _).mpr derived, fun n h => unique _ n _ h derived⟩

end LetLang.Grammar
