import LetLang.Proofs.Lexing.Joining
import LetLang.Proofs.Lexing.Spelling

namespace LetLang.Token
open Numeral

structure Word where
  kind : TokenKind
  text : String
  deriving DecidableEq, Repr

def toWord (t : Token) : Word := ⟨t.kind, t.text⟩

namespace Word

def Spelled (w : Word) : Prop := Spells w.text.toList w.kind

end Word

def Detached (kind : TokenKind) (rest : List Char) : Prop :=
  ∀ d ∈ rest.head?,
    (kind = .number → d.isDigit = false ∧ d ≠ '.') ∧
    (kind = .identifier ∨ kind = .letWord ∨ kind = .constWord → isIdentifierPart d = false)

theorem detached_nil (kind : TokenKind) : Detached kind [] := nofun

theorem detached_cons (kind : TokenKind) {d : Char} (hd : Breaks d) (rest : List Char) :
    Detached kind (d :: rest) := by
  intro c hc
  cases hc
  exact ⟨fun _ => ⟨hd.digit, hd.point⟩, fun _ => hd.part⟩

theorem detached_symbol {c : Char} {kind : TokenKind} (h : symbol? c = some kind)
    (rest : List Char) : Detached kind rest := by
  unfold symbol? at h
  split at h <;> cases h <;> exact fun _ _ => ⟨nofun, by simp⟩

theorem breaks_of_space {c : Char} (h : isSpace c) : Breaks c := by
  rcases isSpace_iff.mp h with rfl | rfl | rfl | rfl <;> exact ⟨rfl, nofun, by decide⟩

theorem breaks_of_symbol {c : Char} {kind : TokenKind} (h : symbol? c = some kind) : Breaks c := by
  unfold symbol? at h
  split at h
  case h_14 => cases h
  all_goals exact ⟨rfl, nofun, by decide⟩

section Runs

variable {f : Char → Bool} {ds rest : List Char}

theorem takeWhile_run (h : ∀ d ∈ ds, f d) (hr : ∀ d ∈ rest.head?, f d = false) :
    (ds ++ rest).takeWhile f = ds := by
  rw [List.takeWhile_append_of_pos h]
  cases rest with
  | nil => exact List.append_nil ds
  | cons d rest => rw [List.takeWhile_cons_of_neg (by simp [hr d rfl]), List.append_nil]

theorem dropWhile_run (h : ∀ d ∈ ds, f d) (hr : ∀ d ∈ rest.head?, f d = false) :
    (ds ++ rest).dropWhile f = rest := by
  rw [List.dropWhile_append_of_pos h]
  cases rest with
  | nil => rfl
  | cons d rest => rw [List.dropWhile_cons_of_neg (by simp [hr d rfl])]

end Runs

theorem numberTail_run {c : Char} {cs rest : List Char} (h : Simple (c :: cs))
    (hr : ∀ d ∈ rest.head?, d.isDigit = false ∧ d ≠ '.') :
    numberTail (cs ++ rest) = (cs, rest) := by
  have digit : ∀ d ∈ rest.head?, d.isDigit = false := fun d hd => (hr d hd).1
  generalize hall : c :: cs = all at h
  cases h with
  | whole h _ =>
    subst hall
    have hcs : Digital cs := fun d hd => h d (List.mem_cons_of_mem c hd)
    have noPoint : ¬ ∃ us, (cs ++ rest).dropWhile Char.isDigit = '.' :: us := by
      rw [dropWhile_run hcs digit]
      rintro ⟨us, rfl⟩
      exact (hr '.' rfl).2 rfl
    rw [numberTail_whole noPoint, takeWhile_run hcs digit, dropWhile_run hcs digit]
  | @pointed ds es h hd he =>
    obtain ⟨d, ds, rfl⟩ := List.exists_cons_of_ne_nil hd
    rw [List.cons_append] at hall
    obtain ⟨rfl, rfl⟩ := List.cons.inj hall
    have hds : Digital ds := fun d hd => h d (List.mem_cons_of_mem _ hd)
    have point : ∀ d ∈ ('.' :: (es ++ rest)).head?, d.isDigit = false := by
      rintro d ⟨⟩
      rfl
    rw [List.append_assoc, List.cons_append, numberTail_point (dropWhile_run hds point),
      takeWhile_run hds point, takeWhile_run he digit, dropWhile_run he digit]

theorem Spells.starts {c : Char} {cs rest : List Char} {kind : TokenKind}
    (h : Spells (c :: cs) kind) (hr : Detached kind rest) :
    Starts c (cs ++ rest) ⟨kind, c :: cs, rest⟩ := by
  rcases h.first with ⟨kind', hc⟩ | hc | hc
  · obtain ⟨rfl, rfl⟩ := h.of_symbol hc
    exact .symbol hc
  · obtain ⟨simple, rfl⟩ := h.of_digit hc
    have number : Starts c (cs ++ rest) _ := .number (symbol?_of_isDigit hc) hc
    rwa [numberTail_run simple fun d hd => (hr d hd).1 rfl] at number
  · obtain ⟨hcs, rfl⟩ := h.of_start hc
    have stops : ∀ d ∈ rest.head?, isIdentifierPart d = false := by
      intro d hd
      apply (hr d hd).2
      rcases wordKind_cases (c :: cs) with hk | hk | hk
      · exact .inr (.inl hk)
      · exact .inr (.inr hk)
      · exact .inl hk
    have noSymbol : symbol? c = none := by
      cases hs : symbol? c with
      | none => rfl
      | some kind => simp [not_isIdentifierStart_of_symbol hs] at hc
    have noDigit : ¬ c.isDigit := by
      intro hd
      simp [not_isIdentifierStart_of_isDigit hd] at hc
    have word : Starts c (cs ++ rest) _ := .word noSymbol noDigit hc
    rwa [takeWhile_run hcs stops, dropWhile_run hcs stops] at word

inductive Spaced : List Char → List Word → Prop where
  | nil : Spaced [] []
  | space {c : Char} {cs : List Char} {ws : List Word} (hc : isSpace c) (h : Spaced cs ws) :
      Spaced (c :: cs) ws
  | word {w : Word} {rest : List Char} {ws : List Word} (hw : w.Spelled)
      (hr : Detached w.kind rest) (h : Spaced rest ws) : Spaced (w.text.toList ++ rest) (w :: ws)

theorem spaced_spelled {kind : TokenKind} {text : String} {rest : List Char} {ws : List Word}
    (h : Spells text.toList kind) (hr : Detached kind rest) (hs : Spaced rest ws) :
    Spaced (text.toList ++ rest) (⟨kind, text⟩ :: ws) :=
  .word (w := ⟨kind, text⟩) h hr hs

theorem Spells.scans {p q : Position} {kind : TokenKind} {text : String} {rest : List Char}
    {ts : List Token} (h : Spells text.toList kind) (hr : Detached kind rest)
    (hs : Scans (p.afterAll text.toList) rest ts q) :
    Scans p (text.toList ++ rest) (⟨kind, text, p⟩ :: ts) q := by
  obtain ⟨c, cs, hcs⟩ := List.exists_cons_of_ne_nil h.text_ne_nil
  have noSpace := h.no_space c (by simp [hcs])
  have written : String.ofList (c :: cs) = text := by rw [← hcs, String.ofList_toList]
  rw [hcs] at h hs ⊢
  have first := Scans.lexeme noSpace (lexeme?_eq_some_iff.mpr (h.starts hr)) hs
  rwa [written] at first

theorem Spaced.scans {cs : List Char} {ws : List Word} (h : Spaced cs ws) (p : Position) :
    ∃ ts q, Scans p cs ts q ∧ ts.map toWord = ws := by
  induction h generalizing p with
  | nil => exact ⟨[], p, .nil, rfl⟩
  | @space c cs ws hc _ ih =>
    obtain ⟨ts, q, scans, said⟩ := ih (p.after c)
    exact ⟨ts, q, .space hc scans, said⟩
  | @word w rest ws hw hr _ ih =>
    obtain ⟨ts, q, scans, said⟩ := ih (p.afterAll w.text.toList)
    refine ⟨_, q, hw.scans hr scans, ?_⟩
    rw [List.map_cons, said, toWord]

def Word.join (ws : List Word) : String := " ".intercalate (ws.map Word.text)

theorem spaced_join {ws : List Word} (h : ∀ w ∈ ws, w.Spelled) :
    Spaced (Word.join ws).toList ws := by
  induction ws with
  | nil => exact .nil
  | cons w ws ih =>
    obtain ⟨hw, hws⟩ := List.forall_mem_cons.mp h
    cases ws with
    | nil =>
      have alone := Spaced.word hw (detached_nil w.kind) .nil
      rwa [List.append_nil] at alone
    | cons v ws =>
      have behind := Spaced.space (c := ' ') rfl (ih hws)
      have whole := Spaced.word hw (detached_cons w.kind (breaks_of_space rfl) _) behind
      rw [Word.join, List.map_cons, List.map_cons, String.intercalate_cons_cons, String.toList_append,
        String.toList_append, List.append_assoc]
      exact whole

end LetLang.Token
