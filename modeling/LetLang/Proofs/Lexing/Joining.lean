import LetLang.Proofs.Lexing.Scans

namespace LetLang

namespace Position

def down (k : Int) (p : Position) : Position := ⟨p.line + k, p.col⟩

theorem down_after (k : Int) (p : Position) (c : Char) :
    (p.after c).down k = (p.down k).after c := by
  by_cases hc : c = '\n'
  · simp [after, down, hc, Int.add_right_comm]
  · simp [after, down, hc]

theorem down_afterAll (k : Int) (p : Position) (cs : List Char) :
    (p.afterAll cs).down k = (p.down k).afterAll cs := by
  induction cs generalizing p with
  | nil => rfl
  | cons c cs ih => rw [afterAll_cons, afterAll_cons, ih, down_after]

theorem after_lineFeed (p : Position) : p.after '\n' = start.down p.line := by
  simp [after, start, down, Int.add_comm]

end Position

namespace Token

def down (k : Int) (t : Token) : Token := { t with position := t.position.down k }

structure Breaks (c : Char) : Prop where
  digit : c.isDigit = false
  point : c ≠ '.'
  part : isIdentifierPart c = false

theorem breaks_lineFeed : Breaks '\n' := ⟨rfl, nofun, by decide⟩

theorem takeWhile_append_cons {f : Char → Bool} {d : Char} (hd : f d = false)
    (cs rest : List Char) : (cs ++ d :: rest).takeWhile f = cs.takeWhile f := by
  induction cs with
  | nil => simp [hd]
  | cons c cs ih =>
    rw [List.cons_append, List.takeWhile_cons, List.takeWhile_cons, ih]

theorem dropWhile_append_cons {f : Char → Bool} {d : Char} (hd : f d = false)
    (cs rest : List Char) : (cs ++ d :: rest).dropWhile f = cs.dropWhile f ++ d :: rest := by
  induction cs with
  | nil => simp [hd]
  | cons c cs ih =>
    rw [List.cons_append, List.dropWhile_cons, List.dropWhile_cons, ih]
    split <;> rfl

theorem numberTail_append_cons {d : Char} (hd : Breaks d) (cs rest : List Char) :
    numberTail (cs ++ d :: rest) = ((numberTail cs).1, (numberTail cs).2 ++ d :: rest) := by
  have behind := dropWhile_append_cons hd.digit cs rest
  have front := takeWhile_append_cons hd.digit cs rest
  by_cases hp : ∃ us, cs.dropWhile Char.isDigit = '.' :: us
  · obtain ⟨us, hp⟩ := hp
    rw [hp, List.cons_append] at behind
    rw [numberTail_point hp, numberTail_point behind, front,
      takeWhile_append_cons hd.digit, dropWhile_append_cons hd.digit]
  · have hn : ¬ ∃ us, (cs ++ d :: rest).dropWhile Char.isDigit = '.' :: us := by
      rintro ⟨us, hu⟩
      rw [behind] at hu
      -- a point behind the digits is either the break, which is none, or was there before
      rcases List.append_eq_cons_iff.mp hu with ⟨_, hu⟩ | ⟨vs, hv, _⟩
      · exact hd.point (List.cons.inj hu).1
      · exact hp ⟨vs, hv⟩
    rw [numberTail_whole hp, numberTail_whole hn, front, behind]

theorem Starts.append_cons {c d : Char} {cs : List Char} {l : Lexeme} (h : Starts c cs l)
    (hd : Breaks d) (rest : List Char) :
    Starts c (cs ++ d :: rest) ⟨l.kind, l.text, l.rest ++ d :: rest⟩ := by
  cases h with
  | symbol h => exact .symbol h
  | number hs h =>
    have longer : Starts c (cs ++ d :: rest) _ := .number hs h
    rwa [numberTail_append_cons hd] at longer
  | word hs hc h =>
    have longer : Starts c (cs ++ d :: rest) _ := .word hs hc h
    rwa [takeWhile_append_cons hd.part, dropWhile_append_cons hd.part] at longer

theorem lexeme?_append_cons {c d : Char} {cs : List Char} {l : Lexeme} (h : lexeme? c cs = some l)
    (hd : Breaks d) (rest : List Char) :
    lexeme? c (cs ++ d :: rest) = some ⟨l.kind, l.text, l.rest ++ d :: rest⟩ :=
  lexeme?_eq_some_iff.mpr ((lexeme?_eq_some_iff.mp h).append_cons hd rest)

theorem Scans.scanFrom_append {p q : Position} {cs : List Char} {ts : List Token}
    (h : Scans p cs ts q) {d : Char} (hd : Breaks d) (rest : List Char) :
    scanFrom p (cs ++ d :: rest) = (ts ++ ·) <$> scanFrom q (d :: rest) := by
  induction h with
  | nil => simp
  | space h _ ih => rw [List.cons_append, scanFrom_space h, ih]
  | lexeme h hl _ ih =>
    rw [List.cons_append, scanFrom_lexeme h (lexeme?_append_cons hl hd rest), ih,
      ← LawfulFunctor.comp_map]
    rfl

theorem Scans.scanFrom_line {p q : Position} {cs : List Char} {ts : List Token}
    (h : Scans p cs ts q) (rest : List Char) :
    scanFrom p (cs ++ '\n' :: rest) = (ts ++ ·) <$> scanFrom (Position.start.down q.line) rest := by
  rw [h.scanFrom_append breaks_lineFeed, scanFrom_space rfl, Position.after_lineFeed]

theorem Scans.scan_line {source : String} {q : Position} {ts : List Token}
    (h : Scans Position.start source.toList ts q) (rest : String) :
    scan (source ++ "\n" ++ rest) =
      (ts ++ ·) <$> scanFrom (Position.start.down q.line) rest.toList := by
  rw [scan, String.toList_append, String.toList_append, List.append_assoc]
  exact h.scanFrom_line rest.toList

theorem Scans.down {p q : Position} {cs : List Char} {ts : List Token} (h : Scans p cs ts q)
    (k : Int) : Scans (p.down k) cs (ts.map (Token.down k)) (q.down k) := by
  induction h with
  | nil => exact .nil
  | space h _ ih =>
    rw [Position.down_after] at ih
    exact .space h ih
  | lexeme h hl _ ih =>
    rw [Position.down_afterAll] at ih
    exact .lexeme h hl ih

end Token

end LetLang
