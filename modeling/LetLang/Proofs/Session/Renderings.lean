import LetLang.Proofs.Lexing.Spacing
import LetLang.Proofs.Session.LineEnds
import Mathlib.Data.List.Chain

namespace LetLang
open Token Grammar LetLang.Parser

namespace Token

def Clash (left right : TokenKind) : Prop :=
  ((left = .identifier ∨ left = .letWord ∨ left = .constWord) ∧
    (right = .identifier ∨ right = .letWord ∨ right = .constWord ∨ right = .number)) ∨
  (left = .number ∧ right = .number)

theorem Word.Spelled.detached {w : Word} (hw : w.Spelled) {left : TokenKind}
    (apart : ¬ Clash left w.kind) (rest : List Char) :
    Detached left (w.text.toList ++ rest) := by
  obtain ⟨c, cs, hcs⟩ := List.exists_cons_of_ne_nil hw.text_ne_nil
  rw [Spelled, hcs] at hw
  rw [hcs, List.cons_append]
  rcases hw.first with ⟨kind, hc⟩ | hc | hc
  · exact detached_cons left (breaks_of_symbol hc) _
  · obtain ⟨_, number⟩ := hw.of_digit hc
    rw [number] at apart
    rintro _ ⟨⟩
    exact ⟨fun hl => absurd (.inr ⟨hl, rfl⟩) apart, fun hl => absurd (.inl ⟨hl, by simp⟩) apart⟩
  · obtain ⟨_, word⟩ := hw.of_start hc
    have right := wordKind_cases (c :: cs)
    rw [← word] at right
    rintro _ ⟨⟩
    refine ⟨fun _ => ⟨?_, ?_⟩, fun hl => absurd (.inl ⟨hl, by tauto⟩) apart⟩
    · by_contra digit
      simp [not_isIdentifierStart_of_isDigit (by simpa using digit)] at hc
    · rintro rfl
      exact absurd hc (by decide)

structure Piece where
  word : Word
  gap : String

structure Rendering where
  front : String
  pieces : List Piece
  spelled : ∀ p ∈ pieces, p.word.Spelled
  frontBlank : ∀ c ∈ front.toList, isSpace c
  gapsBlank : ∀ p ∈ pieces, ∀ c ∈ p.gap.toList, isSpace c
  apart : pieces.IsChain fun p q => Clash p.word.kind q.word.kind → p.gap ≠ ""

namespace Rendering

def words (r : Rendering) : List Word := r.pieces.map Piece.word

def text (r : Rendering) : String :=
  r.front ++ String.join (r.pieces.map fun p => p.word.text ++ p.gap)

end Rendering

theorem spaced_gap {bs cs : List Char} {ws : List Word} (hb : ∀ c ∈ bs, isSpace c)
    (h : Spaced cs ws) : Spaced (bs ++ cs) ws := by
  induction bs with
  | nil => exact h
  | cons b bs ih =>
    obtain ⟨first, others⟩ := List.forall_mem_cons.mp hb
    exact .space first (ih others)

theorem spaced_pieces {ps : List Piece} (spelled : ∀ p ∈ ps, p.word.Spelled)
    (blank : ∀ p ∈ ps, ∀ c ∈ p.gap.toList, isSpace c)
    (apart : ps.IsChain fun p q => Clash p.word.kind q.word.kind → p.gap ≠ "") :
    Spaced (ps.flatMap fun p => p.word.text.toList ++ p.gap.toList) (ps.map Piece.word) := by
  induction ps with
  | nil => exact .nil
  | cons p ps ih =>
    obtain ⟨word, spelled⟩ := List.forall_mem_cons.mp spelled
    obtain ⟨gap, blank⟩ := List.forall_mem_cons.mp blank
    have behind := ih spelled blank apart.tail
    rw [List.flatMap_cons, List.append_assoc]
    refine .word word ?_ (spaced_gap gap behind)
    cases hg : p.gap.toList with
    | cons b bs => exact detached_cons _ (breaks_of_space (gap b (by simp [hg]))) _
    | nil =>
      cases ps with
      | nil => exact detached_nil _
      | cons q ps =>
        have tight : ¬ Clash p.word.kind q.word.kind := fun clash =>
          (List.isChain_cons_cons.mp apart).1 clash (String.toList_eq_nil_iff.mp hg)
        rw [List.flatMap_cons, List.append_assoc]
        exact (spelled q List.mem_cons_self).detached tight _

theorem Rendering.spaced (r : Rendering) : Spaced r.text.toList r.words := by
  rw [text, String.toList_append, String.toList_join, List.flatMap_map]
  simp only [String.toList_append]
  exact spaced_gap r.frontBlank (spaced_pieces r.spelled r.gapsBlank r.apart)

def Word.last : Word := ⟨.endOfInput, ""⟩

theorem Spaced.scan_eq {source : String} {ws : List Word} (h : Spaced source.toList ws) :
    ∃ tokens, scan source = .ok tokens ∧ tokens.map toWord = ws ++ [Word.last] := by
  obtain ⟨ts, q, scans, rfl⟩ := h.scans .start
  exact ⟨_, scans.scanFrom_eq, List.map_append⟩

theorem alike_of_toWord {ts ts' : List Token} (h : ts.map toWord = ts'.map toWord) :
    List.Forall₂ (Alike fun _ _ => True) ts ts' := by
  rw [← List.forall₂_eq_eq_eq, List.forall₂_map_left_iff, List.forall₂_map_right_iff] at h
  apply h.imp
  intro t t' said
  obtain ⟨kind, text⟩ := Word.mk.inj said
  exact ⟨kind, text, trivial⟩

end Token

theorem Grammar.program_alike {S : Position → Position → Prop} {source source' : String}
    {ts ts' : List Token} (hs : scan source = .ok ts) (hs' : scan source' = .ok ts')
    (h : List.Forall₂ (Alike S) ts ts') (n : Node) : program ts = .ok n ↔ program ts' = .ok n := by
  rw [program_eq_ok_iff, program_eq_ok_iff]
  rcases body_alike hs hs' h with ⟨ns, hb, hb'⟩ | ⟨c, t, t', hb, hb', _⟩
  · rw [hb, hb']
  · simp [hb, hb']

theorem Token.Rendering.scan_text (r r' : Rendering) (same : r.words = r'.words) :
    ∃ tokens tokens', scan r.text = .ok tokens ∧ tokens.map toWord = r.words ++ [Word.last] ∧
      scan r'.text = .ok tokens' ∧ tokens'.map toWord = r.words ++ [Word.last] ∧
      ∀ n, program tokens = .ok n ↔ program tokens' = .ok n := by
  obtain ⟨tokens, scanned, said⟩ := r.spaced.scan_eq
  obtain ⟨tokens', scanned', said'⟩ := r'.spaced.scan_eq
  rw [← same] at said'
  have alike := alike_of_toWord (said.trans said'.symm)
  exact ⟨tokens, tokens', scanned, said, scanned', said', program_alike scanned scanned' alike⟩

namespace Token.Rendering

def sampleWords : List Word :=
  [⟨.identifier, "a"⟩, ⟨.equals, "="⟩, ⟨.number, "1."⟩, ⟨.identifier, "b"⟩]

theorem sampleWords_spelled : ∀ w ∈ sampleWords, w.Spelled := by
  have name : Spells ['a'] .identifier := spells_word rfl nofun
  have name' : Spells ['b'] .identifier := spells_word rfl nofun
  have one : Numeral.Digital ['1'] := List.forall_mem_singleton.mpr rfl
  have point : Spells ['1', '.'] .number := .number (.pointed one (List.cons_ne_nil _ _) nofun)
  simpa [sampleWords] using ⟨name, .symbol rfl, point, name'⟩

def crowded : Rendering where
  front := ""
  pieces := sampleWords.map (Piece.mk · "")
  spelled := List.forall_mem_map.mpr sampleWords_spelled
  frontBlank := nofun
  gapsBlank := List.forall_mem_map.mpr fun _ _ => nofun
  apart := by simp [sampleWords, Clash]

def loosened : Rendering where
  front := "\t"
  pieces := sampleWords.map (Piece.mk · " \r\n")
  spelled := List.forall_mem_map.mpr sampleWords_spelled
  frontBlank := List.all_eq_true.mp (by decide)
  gapsBlank := List.forall_mem_map.mpr fun _ _ =>
    show ∀ c ∈ " \r\n".toList, isSpace c from List.all_eq_true.mp (by decide)
  apart := by simp [sampleWords]

theorem crowded_scanned : crowded.text = "a=1.b" ∧ crowded.words = loosened.words ∧
    ∃ tokens tokens', scan "a=1.b" = .ok tokens ∧ scan loosened.text = .ok tokens' ∧
      tokens.map toWord = sampleWords ++ [Word.last] ∧
      ∀ n, program tokens = .ok n ↔ program tokens' = .ok n := by
  have same : crowded.words = loosened.words := by decide
  obtain ⟨tokens, tokens', scanned, said, scanned', _, programs⟩ := crowded.scan_text loosened same
  exact ⟨rfl, same, tokens, tokens', scanned, scanned', said, programs⟩

end Token.Rendering

end LetLang
