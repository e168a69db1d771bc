import LetLang.Proofs.Lexing.Spelling
import Mathlib.Data.List.Forall2

namespace LetLang.Token

variable {S : Position → Position → Prop} {cs cs' : List Char}

inductive Respaced (S : Position → Position → Prop) : List Char → List Char → Prop where
  | nil : Respaced S [] []
  | keep (c : Char) {cs cs' : List Char} (h : Respaced S cs cs') : Respaced S (c :: cs) (c :: cs')
  | swap {b b' : Char} {bs bs' cs cs' : List Char} (hb : ∀ c ∈ b :: bs, isSpace c)
      (hb' : ∀ c ∈ b' :: bs', isSpace c)
      (place : ∀ p q, S p q → S (p.afterAll (b :: bs)) (q.afterAll (b' :: bs')))
      (h : Respaced S cs cs') : Respaced S (b :: (bs ++ cs)) (b' :: (bs' ++ cs'))

theorem Respaced.of_cons {c : Char} {ds : List Char} (h : Respaced S (c :: cs) ds)
    (hc : ¬ isSpace c) : ∃ ds', ds = c :: ds' ∧ Respaced S cs ds' := by
  cases h with
  | keep _ h => exact ⟨_, rfl, h⟩
  | swap hb _ _ _ => exact absurd (hb c List.mem_cons_self) hc

theorem Respaced.of_cons_right {c : Char} {ds : List Char} (h : Respaced S ds (c :: cs))
    (hc : ¬ isSpace c) : ∃ ds', ds = c :: ds' ∧ Respaced S ds' cs := by
  cases h with
  | keep _ h => exact ⟨_, rfl, h⟩
  | swap _ hb' _ _ => exact absurd (hb' c List.mem_cons_self) hc

theorem Respaced.run {f : Char → Bool} (h : Respaced S cs cs') (hf : ∀ {c}, f c → ¬ isSpace c) :
    cs.takeWhile f = cs'.takeWhile f ∧ Respaced S (cs.dropWhile f) (cs'.dropWhile f) := by
  induction h with
  | nil => exact ⟨rfl, .nil⟩
  | keep c h ih =>
    obtain ⟨run, behind⟩ := ih
    cases hc : f c with
    | true =>
      rw [List.takeWhile_cons_of_pos hc, List.takeWhile_cons_of_pos hc,
        List.dropWhile_cons_of_pos hc, List.dropWhile_cons_of_pos hc, run]
      exact ⟨rfl, behind⟩
    | false =>
      have stops : ¬ f c = true := by simp [hc]
      rw [List.takeWhile_cons_of_neg stops, List.takeWhile_cons_of_neg stops,
        List.dropWhile_cons_of_neg stops, List.dropWhile_cons_of_neg stops]
      exact ⟨rfl, .keep c h⟩
  | @swap b b' bs bs' cs cs' hb hb' place h _ =>
    have stops : ¬ f b = true := fun hc => hf hc (hb b List.mem_cons_self)
    have stops' : ¬ f b' = true := fun hc => hf hc (hb' b' List.mem_cons_self)
    rw [List.takeWhile_cons_of_neg stops, List.takeWhile_cons_of_neg stops',
      List.dropWhile_cons_of_neg stops, List.dropWhile_cons_of_neg stops']
    exact ⟨rfl, .swap hb hb' place h⟩

theorem Respaced.numberTail (h : Respaced S cs cs') :
    (numberTail cs).1 = (Token.numberTail cs').1 ∧
      Respaced S (Token.numberTail cs).2 (Token.numberTail cs').2 := by
  obtain ⟨digits, behind⟩ := h.run not_isSpace_of_digit
  by_cases point : ∃ us, cs.dropWhile Char.isDigit = '.' :: us
  · obtain ⟨us, hu⟩ := point
    rw [hu] at behind
    obtain ⟨us', hu', behind⟩ := behind.of_cons (by decide)
    obtain ⟨decimals, behind⟩ := behind.run not_isSpace_of_digit
    rw [numberTail_point hu, numberTail_point hu', digits, decimals]
    exact ⟨rfl, behind⟩
  · have point' : ¬ ∃ us, cs'.dropWhile Char.isDigit = '.' :: us := by
      rintro ⟨us', hu'⟩
      rw [hu'] at behind
      obtain ⟨us, hu, _⟩ := behind.of_cons_right (by decide)
      exact point ⟨us, hu⟩
    rw [numberTail_whole point, numberTail_whole point']
    exact ⟨digits, behind⟩

theorem Respaced.starts {c : Char} {l : Lexeme} (h : Respaced S cs cs') (hl : Starts c cs l) :
    ∃ rest, Starts c cs' ⟨l.kind, l.text, rest⟩ ∧ Respaced S l.rest rest := by
  cases hl with
  | symbol hs => exact ⟨cs', .symbol hs, h⟩
  | number hs hd =>
    obtain ⟨text, behind⟩ := h.numberTail
    rw [text]
    exact ⟨_, .number hs hd, behind⟩
  | word hs hd hi =>
    obtain ⟨text, behind⟩ := h.run not_isSpace_of_part
    rw [text]
    exact ⟨_, .word hs hd hi, behind⟩

theorem scanFrom_spaces {bs : List Char} (h : ∀ c ∈ bs, isSpace c) (p : Position)
    (rest : List Char) : scanFrom p (bs ++ rest) = scanFrom (p.afterAll bs) rest := by
  induction bs generalizing p with
  | nil => rfl
  | cons b bs ih =>
    obtain ⟨hb, hbs⟩ := List.forall_mem_cons.mp h
    rw [List.cons_append, scanFrom_space hb, ih hbs, Position.afterAll_cons]

structure Alike (S : Position → Position → Prop) (t t' : Token) : Prop where
  kind : t.kind = t'.kind
  text : t.text = t'.text
  place : S t.position t'.position

theorem Scans.elsewhere {p q : Position} {cs : List Char} {ts : List Token}
    (h : Scans p cs ts q) (r : Position) :
    ∃ us s, Scans r cs us s ∧ List.Forall₂ (Alike fun _ _ => True) ts us := by
  induction h generalizing r with
  | nil => exact ⟨[], r, .nil, .nil⟩
  | @space _ _ c _ _ hc _ ih =>
    obtain ⟨us, s, scans, alike⟩ := ih (r.after c)
    exact ⟨us, s, .space hc scans, alike⟩
  | @lexeme _ _ _ _ l _ hc hl _ ih =>
    obtain ⟨us, s, scans, alike⟩ := ih (r.afterAll l.text)
    exact ⟨_, s, .lexeme hc hl scans, .cons ⟨rfl, rfl, trivial⟩ alike⟩

inductive ScansAlike (S : Position → Position → Prop) :
    Except LexicalFault (List Token) → Except LexicalFault (List Token) → Prop where
  | tokens {ts ts' : List Token} (h : List.Forall₂ (Alike S) ts ts') :
      ScansAlike S (.ok ts) (.ok ts')
  | fault (c : Char) {p q : Position} (h : S p q) : ScansAlike S (.error ⟨c, p⟩) (.error ⟨c, q⟩)

theorem ScansAlike.cons {t t' : Token} {r r' : Except LexicalFault (List Token)} (h : Alike S t t')
    (hr : ScansAlike S r r') : ScansAlike S ((t :: ·) <$> r) ((t' :: ·) <$> r') := by
  cases hr with
  | tokens ht => exact .tokens (.cons h ht)
  | fault c hp => exact .fault c hp

theorem Alike.eq {t t' : Token} (h : Alike (· = ·) t t') : t = t' := by
  obtain ⟨kind, text, place⟩ := h
  cases t
  cases t'
  rw [Token.mk.injEq]
  exact ⟨kind, text, place⟩

theorem ScansAlike.eq {r r' : Except LexicalFault (List Token)} (h : ScansAlike (· = ·) r r') :
    r = r' := by
  cases h with
  | tokens ht =>
    have same : List.Forall₂ (· = ·) _ _ := ht.imp fun _ _ => Alike.eq
    rw [List.forall₂_eq_eq_eq] at same
    rw [same]
  | fault c hp => rw [hp]

variable (hS : ∀ p q c, S p q → S (p.after c) (q.after c))
include hS

theorem afterAll_related {p q : Position} (h : S p q) (cs : List Char) :
    S (p.afterAll cs) (q.afterAll cs) := by
  induction cs generalizing p q with
  | nil => exact h
  | cons c cs ih => exact ih (hS p q c h)

theorem scanFrom_respaced {cs cs' : List Char} (h : Respaced S cs cs') {p q : Position}
    (hp : S p q) : ScansAlike S (scanFrom p cs) (scanFrom q cs') := by
  cases h with
  | nil =>
    rw [scanFrom_nil, scanFrom_nil]
    exact .tokens (.cons ⟨rfl, rfl, hp⟩ .nil)
  | @keep c rest rest' h =>
    by_cases hc : isSpace c
    · rw [scanFrom_space hc, scanFrom_space hc]
      exact scanFrom_respaced h (hS p q c hp)
    · cases hl : lexeme? c rest with
      | none =>
        have hl' : lexeme? c rest' = none := lexeme?_eq_none_iff.mpr (lexeme?_eq_none_iff.mp hl)
        rw [scanFrom_none hc hl, scanFrom_none hc hl']
        exact .fault c hp
      | some l =>
        have shorter := lexeme?_rest_length_le hl
        obtain ⟨behind, starts, respaced⟩ := h.starts (lexeme?_eq_some_iff.mp hl)
        rw [scanFrom_lexeme hc hl, scanFrom_lexeme hc (lexeme?_eq_some_iff.mpr starts)]
        exact .cons ⟨rfl, rfl, hp⟩ (scanFrom_respaced respaced (afterAll_related hS hp l.text))
  | @swap b b' bs bs' rest rest' hb hb' place h =>
    rw [← List.cons_append, ← List.cons_append, scanFrom_spaces hb, scanFrom_spaces hb']
    exact scanFrom_respaced h (place p q hp)
termination_by cs.length
decreasing_by
  all_goals simp only [List.length_cons, List.length_append]
  all_goals omega

end LetLang.Token
