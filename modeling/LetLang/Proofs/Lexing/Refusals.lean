import LetLang.Proofs.Lexing.Places
import LetLang.Proofs.Lexing.Spacing

namespace LetLang.Token
open Numeral Position

inductive Refuses : Position → List Char → LexicalFault → Prop where
  | here {p : Position} {c : Char} {rest : List Char} (h : ¬ isSpace c)
      (hl : lexeme? c rest = none) : Refuses p (c :: rest) ⟨c, p⟩
  | space {p : Position} {c : Char} {rest : List Char} {fault : LexicalFault} (h : isSpace c)
      (hr : Refuses (p.after c) rest fault) : Refuses p (c :: rest) fault
  | lexeme {p : Position} {c : Char} {rest : List Char} {l : Lexeme} {fault : LexicalFault}
      (h : ¬ isSpace c) (hl : lexeme? c rest = some l)
      (hr : Refuses (p.afterAll l.text) l.rest fault) : Refuses p (c :: rest) fault

theorem refuses_of_error {p : Position} {cs : List Char} {fault : LexicalFault}
    (h : scanFrom p cs = .error fault) : Refuses p cs fault := by
  match cs with
  | [] =>
    rw [scanFrom_nil] at h
    cases h
  | c :: rest =>
    by_cases hc : isSpace c
    · rw [scanFrom_space hc] at h
      exact .space hc (refuses_of_error h)
    · rcases hl : lexeme? c rest with _ | l
      · rw [scanFrom_none hc hl] at h
        cases h
        exact .here hc hl
      · have shorter := lexeme?_rest_length_le hl
        rw [scanFrom_lexeme hc hl] at h
        rcases hr : scanFrom (p.afterAll l.text) l.rest with fault' | ts
        · rw [hr] at h
          cases h
          exact .lexeme hc hl (refuses_of_error hr)
        · rw [hr] at h
          cases h
termination_by cs.length

theorem Refuses.scanFrom_eq {p : Position} {cs : List Char} {fault : LexicalFault}
    (h : Refuses p cs fault) : scanFrom p cs = .error fault := by
  induction h with
  | here h hl => exact scanFrom_none h hl _
  | space h _ ih => rw [scanFrom_space h, ih]
  | lexeme h hl _ ih =>
    rw [scanFrom_lexeme h hl, ih]
    rfl

def StartsLike (rest : List Char) (cs : List Char) : Prop := ∀ d ∈ rest.head?, d ∈ cs.head?

theorem startsLike_append (front : List Char) (cs : List Char) : StartsLike front (front ++ cs) := by
  cases front with
  | nil => nofun
  | cons c front => exact fun _ h => h

theorem startsLike_append_cons (front : List Char) (c : Char) (cs cs' : List Char) :
    StartsLike (front ++ c :: cs) (front ++ c :: cs') := by
  cases front <;> exact fun _ h => h

section Cut

variable {cs rest : List Char}

theorem StartsLike.stops {f : Char → Bool} (h : StartsLike rest (cs.dropWhile f)) :
    ∀ d ∈ rest.head?, f d = false := by
  intro d hd
  have stopped := List.head?_dropWhile_not f cs
  rw [h d hd] at stopped
  simpa using stopped

theorem StartsLike.run {f : Char → Bool} (h : StartsLike rest (cs.dropWhile f)) :
    (cs.takeWhile f ++ rest).takeWhile f = cs.takeWhile f ∧
      (cs.takeWhile f ++ rest).dropWhile f = rest := by
  have run : ∀ d ∈ cs.takeWhile f, f d := fun d hd => List.mem_takeWhile_imp hd
  exact ⟨takeWhile_run run h.stops, dropWhile_run run h.stops⟩

theorem StartsLike.numberTail (h : StartsLike rest (numberTail cs).2) :
    Token.numberTail ((Token.numberTail cs).1 ++ rest) = ((Token.numberTail cs).1, rest) := by
  by_cases point : ∃ us, cs.dropWhile Char.isDigit = '.' :: us
  · obtain ⟨us, hu⟩ := point
    rw [numberTail_point hu] at h ⊢
    obtain ⟨decimals, behind⟩ := h.run
    have whole : StartsLike ('.' :: (us.takeWhile Char.isDigit ++ rest))
        (cs.dropWhile Char.isDigit) := by
      rw [hu]
      exact fun _ hd => hd
    obtain ⟨digits, pointed⟩ := whole.run
    rw [List.append_assoc, List.cons_append, numberTail_point pointed, digits, decimals, behind]
  · rw [numberTail_whole point] at h ⊢
    obtain ⟨digits, behind⟩ := h.run
    have noPoint : ¬ ∃ us, (cs.takeWhile Char.isDigit ++ rest).dropWhile Char.isDigit =
        '.' :: us := by
      rw [behind]
      rintro ⟨us, rfl⟩
      obtain ⟨vs, hv⟩ := List.head?_eq_some_iff.mp (h '.' rfl)
      exact point ⟨vs, hv⟩
    rw [numberTail_whole noPoint, digits, behind]

theorem Starts.cut {c : Char} {l : Lexeme} (hl : Starts c cs l) (h : StartsLike rest l.rest) :
    ∃ tail, l.text = c :: tail ∧ Starts c (tail ++ rest) ⟨l.kind, l.text, rest⟩ := by
  cases hl with
  | symbol hs => exact ⟨[], rfl, .symbol hs⟩
  | number hs hd =>
    have number : Starts c ((numberTail cs).1 ++ rest) _ := .number hs hd
    rw [h.numberTail] at number
    exact ⟨_, rfl, number⟩
  | word hs hd hi =>
    have word : Starts c (cs.takeWhile isIdentifierPart ++ rest) _ := .word hs hd hi
    rw [h.run.1, h.run.2] at word
    exact ⟨_, rfl, word⟩

theorem lexeme?_cut {c : Char} {l : Lexeme} (hl : lexeme? c cs = some l)
    (h : StartsLike rest l.rest) :
    ∃ tail, l.text ++ rest = c :: (tail ++ rest) ∧
      lexeme? c (tail ++ rest) = some ⟨l.kind, l.text, rest⟩ := by
  obtain ⟨tail, text, starts⟩ := (lexeme?_eq_some_iff.mp hl).cut h
  exact ⟨tail, by rw [text, List.cons_append], lexeme?_eq_some_iff.mpr starts⟩

end Cut

structure Blocked (p : Position) (front : List Char) (fault : LexicalFault) : Prop where
  position : fault.position = p.afterAll front
  visible : ¬ isSpace fault.char
  scanned : ∃ ts q, Scans p front ts q
  refused : ∀ rest, Refuses p (front ++ fault.char :: rest) fault

theorem Refuses.split {p : Position} {cs : List Char} {fault : LexicalFault}
    (h : Refuses p cs fault) :
    ∃ front rest, cs = front ++ fault.char :: rest ∧ Blocked p front fault := by
  induction h with
  | @here p c rest hc hl =>
    refine ⟨[], rest, rfl, rfl, hc, ⟨[], p, .nil⟩, fun other => .here hc ?_⟩
    exact lexeme?_eq_none_iff.mpr (lexeme?_eq_none_iff.mp hl)
  | @space p c rest fault hc _ ih =>
    obtain ⟨front, behind, rfl, blocked⟩ := ih
    obtain ⟨ts, q, scans⟩ := blocked.scanned
    exact ⟨c :: front, behind, rfl, blocked.position, blocked.visible, ⟨ts, q, .space hc scans⟩,
      fun other => .space hc (blocked.refused other)⟩
  | @lexeme p c rest l fault hc hl _ ih =>
    obtain ⟨front, behind, hrest, blocked⟩ := ih
    refine ⟨l.text ++ front, behind, ?_, ?_, blocked.visible, ?_, fun other => ?_⟩
    · rw [← lexeme?_append hl, hrest, List.append_assoc]
    · rw [blocked.position, afterAll_append]
    · obtain ⟨ts, q, scans⟩ := blocked.scanned
      obtain ⟨tail, text, cut⟩ := lexeme?_cut hl (hrest ▸ startsLike_append front _)
      rw [text]
      exact ⟨_, q, .lexeme hc cut scans⟩
    · obtain ⟨tail, text, cut⟩ :=
        lexeme?_cut hl (hrest ▸ startsLike_append_cons front fault.char other behind)
      rw [List.append_assoc, text]
      exact .lexeme hc cut (blocked.refused other)

theorem scanFrom_front {p : Position} {front rest : List Char} {tokens : List Token}
    (h : scanFrom p (front ++ rest) = .ok tokens) : ∃ tokens', scanFrom p front = .ok tokens' := by
  cases hf : scanFrom p front with
  | ok tokens' => exact ⟨tokens', rfl⟩
  | error fault =>
    obtain ⟨ds, ds', rfl, blocked⟩ := (refuses_of_error hf).split
    have refused := (blocked.refused (ds' ++ rest)).scanFrom_eq
    rw [List.append_assoc, List.cons_append, refused] at h
    cases h

theorem scan_prefixes (source : String) :
    (∀ fault, scan source = .error fault →
      ∃ i, source.toList[i]? = some fault.char ∧
        fault.position = ofOffset source.toList i ∧
        (∃ tokens, scan (String.ofList (source.toList.take i)) = .ok tokens) ∧
        ∀ other, scan (String.ofList (source.toList.take (i + 1)) ++ other) = .error fault) ∧
    ∀ tokens, scan source = .ok tokens →
      ∀ i, ∃ tokens', scan (String.ofList (source.toList.take i)) = .ok tokens' := by
  refine ⟨fun fault refused => ?_, fun tokens scanned i => ?_⟩
  · obtain ⟨front, rest, hs, blocked⟩ := (refuses_of_error refused).split
    obtain ⟨ts, q, scans⟩ := blocked.scanned
    refine ⟨front.length, ?_, ?_, ?_, fun other => ?_⟩
    · rw [hs, List.getElem?_append_right (Nat.le_refl _), Nat.sub_self]
      rfl
    · rw [blocked.position, start_afterAll, hs, ofOffset_length]
    · rw [hs, List.take_left, scan, String.toList_ofList]
      exact ⟨_, scans.scanFrom_eq⟩
    · have cut : source.toList.take (front.length + 1) = front ++ [fault.char] := by
        rw [hs, List.take_length_add_append]
        rfl
      rw [cut, scan, String.toList_append, String.toList_ofList, List.append_assoc]
      exact (blocked.refused other.toList).scanFrom_eq
  · rw [scan, String.toList_ofList]
    rw [scan, ← List.take_append_drop i source.toList] at scanned
    exact scanFrom_front scanned

theorem scan_prefixes_raised_digit :
    scan "a² + 2²" = .error ⟨'²', ⟨1, 7⟩⟩ ∧
    (∃ tokens, scan "a² + 2" = .ok tokens) ∧
    ∀ other, scan ("a² + 2²" ++ other) = .error ⟨'²', ⟨1, 7⟩⟩ := by
  have refuses : Refuses .start ['a', '²', ' ', '+', ' ', '2', '²'] ⟨'²', ⟨1, 7⟩⟩ := by
    refine .lexeme (by decide) rfl (.space rfl ?_)
    refine .lexeme (by decide) rfl (.space rfl ?_)
    exact .lexeme (by decide) rfl (.here (by decide) rfl)
  have refused : scan "a² + 2²" = .error ⟨'²', ⟨1, 7⟩⟩ := refuses.scanFrom_eq
  obtain ⟨i, char, place, scanned, others⟩ := (scan_prefixes "a² + 2²").1 _ refused
  have inside : i < 7 := (List.getElem?_eq_some_iff.mp char).1
  have last : ∀ i < 7, ⟨1, 7⟩ = ofOffset "a² + 2²".toList i → i = 6 := by decide
  obtain rfl := last i inside place
  exact ⟨refused, scanned, others⟩

end LetLang.Token
