import LetLang.Proofs.Lexing.Places
import LetLang.Proofs.Lexing.Spelling

namespace LetLang.Token
open Position

theorem Scans.stop_eq {p q : Position} {cs : List Char} {ts : List Token} (h : Scans p cs ts q) :
    q = p.afterAll cs := by
  induction h with
  | nil => rfl
  | space _ _ ih => exact ih
  | lexeme _ hl _ ih =>
    rw [← afterAll_append, lexeme?_append hl] at ih
    exact ih

structure Occurrence where
  offset : Nat
  token : Token

namespace Occurrence

def stop (o : Occurrence) : Nat := o.offset + o.token.text.length

def Covers (o : Occurrence) (i : Nat) : Prop := o.offset ≤ i ∧ i < o.stop

structure Placed (o : Occurrence) (source : List Char) : Prop where
  nonempty : o.token.text ≠ ""
  slice : (source.drop o.offset).take o.token.text.length = o.token.text.toList
  kind : ∀ kind, Spells o.token.text.toList kind ↔ kind = o.token.kind
  maximal : ∀ c, source[o.stop]? = some c → ∀ kind, ¬ Spells (o.token.text.toList ++ [c]) kind
  position : o.token.position = ofOffset source o.offset

theorem Placed.offset_lt {o : Occurrence} {source : List Char} (h : o.Placed source) :
    o.offset < o.stop := by
  have positive : 0 < o.token.text.length := by
    rw [← String.length_toList]
    exact List.length_pos_iff.mpr (mt String.toList_eq_nil_iff.mp h.nonempty)
  unfold stop
  omega

theorem Placed.split {o : Occurrence} {source : List Char} (h : o.Placed source) :
    ∃ front rest, source = front ++ o.token.text.toList ++ rest ∧
      o.token.position = behind front := by
  refine ⟨source.take o.offset, (source.drop o.offset).drop o.token.text.length, ?_, h.position⟩
  rw [← h.slice, List.append_assoc, List.take_append_drop, List.take_append_drop]

theorem Placed.no_space {o : Occurrence} {source : List Char} (h : o.Placed source) :
    ∀ c ∈ o.token.text.toList, ¬ isSpace c :=
  ((h.kind o.token.kind).mpr rfl).no_space

theorem placed_lexeme (front : List Char) {c : Char} {rest : List Char} {l : Lexeme}
    (h : Starts c rest l) :
    Placed ⟨front.length, l.kind, String.ofList l.text, behind front⟩
      (front ++ l.text ++ l.rest) where
  nonempty := by
    intro empty
    exact lexeme?_text_ne_nil (lexeme?_eq_some_iff.mpr h) (String.ofList_eq_empty_iff.mp empty)
  slice := by
    rw [String.length_ofList, String.toList_ofList, List.append_assoc, List.drop_left,
      List.take_left]
  kind := by
    intro kind
    rw [String.toList_ofList]
    exact ⟨fun hk => hk.unique h.spells, fun hk => hk ▸ h.spells⟩
  maximal := by
    intro d hd
    have inFront : front.length + l.text.length = (front ++ l.text).length :=
      List.length_append.symm
    rw [stop, String.length_ofList, inFront, ← List.head?_drop, List.drop_left] at hd
    rw [String.toList_ofList]
    exact h.maximal hd
  position := by
    rw [List.append_assoc, ofOffset_length]

end Occurrence

structure Layout (source : List Char) (offset : Nat) (os : List Occurrence) : Prop where
  placed : ∀ o ∈ os, o.Placed source
  behind : ∀ o ∈ os, offset ≤ o.offset
  apart : os.Pairwise fun o o' => o.stop ≤ o'.offset
  between : ∀ i c, offset ≤ i → source[i]? = some c → (∀ o ∈ os, ¬ o.Covers i) → isSpace c

namespace Layout

theorem nil (source : List Char) : Layout source source.length [] where
  placed := nofun
  behind := nofun
  apart := .nil
  between := by
    intro i c hi hc
    rw [List.getElem?_eq_none hi] at hc
    cases hc

theorem space {source : List Char} {offset : Nat} {os : List Occurrence} {c : Char}
    (hc : source[offset]? = some c) (hs : isSpace c) (h : Layout source (offset + 1) os) :
    Layout source offset os where
  placed := h.placed
  behind := fun o ho => Nat.le_of_succ_le (h.behind o ho)
  apart := h.apart
  between := by
    intro i d hi hd uncovered
    rcases Nat.eq_or_lt_of_le hi with rfl | later
    · rw [hc] at hd
      cases hd
      exact hs
    · exact h.between i d later hd uncovered

theorem cons {source : List Char} {o : Occurrence} {os : List Occurrence} (ho : o.Placed source)
    (h : Layout source o.stop os) : Layout source o.offset (o :: os) where
  placed := List.forall_mem_cons.mpr ⟨ho, h.placed⟩
  behind := by
    refine List.forall_mem_cons.mpr ⟨Nat.le_refl _, fun o' ho' => ?_⟩
    exact Nat.le_trans (Nat.le_of_lt ho.offset_lt) (h.behind o' ho')
  apart := List.pairwise_cons.mpr ⟨h.behind, h.apart⟩
  between := by
    intro i c hi hc uncovered
    obtain ⟨outside, others⟩ := List.forall_mem_cons.mp uncovered
    have later : o.stop ≤ i := by
      rcases Nat.lt_or_ge i o.stop with inside | later
      · exact absurd ⟨hi, inside⟩ outside
      · exact later
    exact h.between i c later hc others

theorem increasing {source : List Char} {offset : Nat} {os : List Occurrence}
    (h : Layout source offset os) : (os.map Occurrence.offset).Pairwise (· < ·) := by
  refine List.pairwise_map.mpr (h.apart.imp_of_mem ?_)
  intro o o' ho _ apart
  exact Nat.lt_of_lt_of_le (h.placed o ho).offset_lt apart

end Layout

theorem Scans.layout {p q : Position} {cs : List Char} {ts : List Token} (h : Scans p cs ts q)
    (front : List Char) (hp : p = behind front) :
    ∃ os, os.map Occurrence.token = ts ∧ Layout (front ++ cs) front.length os := by
  induction h generalizing front with
  | nil =>
    have none := Layout.nil front
    exact ⟨[], rfl, by rwa [List.append_nil]⟩
  | @space p q c rest ts hc _ ih =>
    have next : p.after c = behind (front ++ [c]) := by rw [behind_concat, hp]
    obtain ⟨os, hos, layout⟩ := ih (front ++ [c]) next
    rw [List.append_assoc, List.length_append] at layout
    have here : (front ++ c :: rest)[front.length]? = some c := by simp
    exact ⟨os, hos, layout.space here hc⟩
  | @lexeme p q c rest l ts hc hl _ ih =>
    have next : p.afterAll l.text = behind (front ++ l.text) := by rw [behind_append, hp]
    obtain ⟨os, hos, layout⟩ := ih (front ++ l.text) next
    have placed := Occurrence.placed_lexeme front (lexeme?_eq_some_iff.mp hl)
    have reached : Occurrence.stop ⟨front.length, l.kind, String.ofList l.text, p⟩ =
        (front ++ l.text).length := by
      rw [Occurrence.stop, String.length_ofList, List.length_append]
    rw [List.append_assoc, lexeme?_append hl] at layout placed
    rw [← hp] at placed
    rw [← reached] at layout
    exact ⟨⟨front.length, _⟩ :: os, congrArg _ hos, layout.cons placed⟩

theorem scan_layout {source : String} {tokens : List Token} (h : scan source = .ok tokens) :
    ∃ os : List Occurrence,
      tokens = os.map Occurrence.token ++
        [⟨.endOfInput, "", ofOffset source.toList source.toList.length⟩] ∧
      (∀ o ∈ os, o.token.kind ≠ .endOfInput) ∧
      (os.map Occurrence.offset).Pairwise (· < ·) ∧
      (os.Pairwise fun o o' => o.stop ≤ o'.offset) ∧
      (∀ o ∈ os, o.Placed source.toList) ∧
      ∀ i c, source.toList[i]? = some c → (∀ o ∈ os, ¬ o.Covers i) →
        c = ' ' ∨ c = '\t' ∨ c = '\r' ∨ c = '\n' := by
  obtain ⟨ts, q, scans, rfl⟩ := exists_scans h
  obtain ⟨os, rfl, layout⟩ := scans.layout [] rfl
  have last : q = ofOffset source.toList source.toList.length := by
    rw [ofOffset_end, scans.stop_eq, start_afterAll]
  refine ⟨os, by rw [last], fun o ho => ?_, layout.increasing, layout.apart, layout.placed,
    fun i c hc uncovered => ?_⟩
  · exact scans.inner o.token (List.mem_map_of_mem ho)
  · exact isSpace_iff.mp (layout.between i c (Nat.zero_le i) hc uncovered)

theorem scan_layout_declaration :
    scan "const é1\r\n\t= 2.;" = .ok [⟨.constWord, "const", ⟨1, 1⟩⟩, ⟨.identifier, "é1", ⟨1, 7⟩⟩,
      ⟨.equals, "=", ⟨2, 2⟩⟩, ⟨.number, "2.", ⟨2, 4⟩⟩, ⟨.semicolon, ";", ⟨2, 6⟩⟩,
      ⟨.endOfInput, "", ⟨2, 7⟩⟩] ∧
    ∃ os : List Occurrence, os.length = 5 ∧ (os.map Occurrence.offset).Pairwise (· < ·) ∧
      ∀ o ∈ os, o.Placed "const é1\r\n\t= 2.;".toList := by
  have scanned : scan "const é1\r\n\t= 2.;" = .ok [⟨.constWord, "const", ⟨1, 1⟩⟩,
      ⟨.identifier, "é1", ⟨1, 7⟩⟩, ⟨.equals, "=", ⟨2, 2⟩⟩, ⟨.number, "2.", ⟨2, 4⟩⟩,
      ⟨.semicolon, ";", ⟨2, 6⟩⟩, ⟨.endOfInput, "", ⟨2, 7⟩⟩] := by
    with_unfolding_all rfl
  obtain ⟨os, tokens, _, increasing, _, placed, _⟩ := scan_layout scanned
  have five := congrArg List.length tokens
  rw [List.length_append, List.length_map] at five
  exact ⟨scanned, os, Nat.succ.inj five.symm, increasing, placed⟩

end LetLang.Token
