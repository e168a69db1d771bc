import LetLang.Proofs.Grammar.Acceptance
import Mathlib.Logic.Relation

namespace LetLang.Grammar
open LetLang.Parser TokenStream

inductive Reclosed : List Token → List Token → Prop where
  | opened {s : Token} {front ts back : List Token} {ns ms : List Node} {n : Node}
      (hf : Statements front ns) (h : Expression ts n) (hs : s.kind = .semicolon)
      (hb : Statements back ms) : Reclosed (front ++ (ts ++ [s]) ++ back) (front ++ ts ++ back)
  | closed {s : Token} {front ts back : List Token} {ns ms : List Node} {n : Node}
      (hf : Statements front ns) (h : Expression ts n) (hs : s.kind = .semicolon)
      (hb : Statements back ms) : Reclosed (front ++ ts ++ back) (front ++ (ts ++ [s]) ++ back)

abbrev Reterminated : List Token → List Token → Prop := Relation.ReflTransGen Reclosed

theorem Statements.between {front ts back : List Token} {ns ms : List Node} {n : Node}
    (hf : Statements front ns) (h : Statement ts n) (hb : Statements back ms) :
    Statements (front ++ ts ++ back) (ns ++ n :: ms) := by
  rw [List.append_assoc]
  exact hf.append (.cons h hb)

theorem Reclosed.statements {ts us : List Token} {ns : List Node} (h : Reclosed ts us)
    (hs : Statements ts ns) : Statements us ns := by
  cases h with
  | opened hf h semicolon hb =>
    rw [hs.unique (hf.between (.closed h semicolon) hb)]
    exact hf.between (.expression h) hb
  | closed hf h semicolon hb =>
    rw [hs.unique (hf.between (.expression h) hb)]
    exact hf.between (.closed h semicolon) hb

theorem Reterminated.statements {ts us : List Token} {ns : List Node} (h : Reterminated ts us)
    (hs : Statements ts ns) : Statements us ns := by
  induction h with
  | refl => exact hs
  | tail _ step ih => exact step.statements ih

def fromEnd (tokens : List Token) : List Token := tokens.dropWhile (!isEnd ·)

theorem fromEnd_append_cons {ts : List Token} (hts : Inner ts) {e : Token}
    (he : e.kind = .endOfInput) (us : List Token) : fromEnd (ts ++ e :: us) = e :: us := by
  rw [fromEnd, List.dropWhile_append_of_pos (by simpa [isEnd, Inner] using hts),
    List.dropWhile_cons_of_neg (by simp [isEnd, he])]

theorem Terminated.replace {ts us : List Token} {e : Token} (h : Terminated (ts ++ e :: us))
    (ts' : List Token) : Terminated (ts' ++ e :: us) := by
  obtain ⟨last, hl, hk⟩ := h
  refine ⟨last, ?_, hk⟩
  rw [List.getLast?_append, List.getLast?_cons, Option.some_or] at hl ⊢
  exact hl

theorem program_reterminated {tokens us : List Token} {n : Node} (h : program tokens = .ok n)
    (hu : Reterminated (beforeEnd tokens) us) : program (us ++ fromEnd tokens) = .ok n := by
  have hend := program_terminated h
  obtain ⟨ts, e, vs, rfl, hts, he⟩ := hend.split
  rw [beforeEnd_append_cons hts he] at hu
  rw [fromEnd_append_cons hts he]
  obtain ⟨hs⟩ := (program_iff_of_split hts he hend).mp h
  have changed := hu.statements hs
  exact (program_iff_of_split changed.inner he (hend.replace us)).mpr (.body changed)

def openEnded : List Token := [⟨.identifier, "f", ⟨1, 1⟩⟩]

def grouped : List Token :=
  [⟨.openParen, "(", ⟨1, 3⟩⟩, ⟨.identifier, "x", ⟨1, 4⟩⟩, ⟨.closeParen, ")", ⟨1, 5⟩⟩]

theorem openEnded_expression : Expression openEnded (.identifier "f") :=
  .sum (.product (.primary (.identifier rfl)))

theorem grouped_expression : Expression grouped (.identifier "x") := by
  have name : Expression [⟨.identifier, "x", ⟨1, 4⟩⟩] (.identifier "x") :=
    .sum (.product (.primary (.identifier rfl)))
  exact .sum (.product (.primary (.parentheses (o := ⟨.openParen, "(", ⟨1, 3⟩⟩) rfl name rfl)))

theorem openEnded_reterminated :
    program (openEnded ++ [sample .semicolon] ++ grouped ++ [sample .endOfInput]) =
      .ok (.program [.identifier "f", .identifier "x"]) ∧
    program (openEnded ++ (grouped ++ [sample .semicolon]) ++ [sample .endOfInput]) =
      .ok (.program [.identifier "f", .identifier "x"]) := by
  have first := openEnded_expression
  have second := grouped_expression
  have alone : ∀ {ts n}, Expression ts n → Statements ts [n] := fun h => by
    simpa using Statements.cons (.expression h) .nil
  have apart : Statements (openEnded ++ [sample .semicolon] ++ grouped)
      [.identifier "f", .identifier "x"] :=
    .cons (.closed first rfl) (alone second)
  have accepted : program (openEnded ++ [sample .semicolon] ++ grouped ++ [sample .endOfInput]) =
      .ok (.program [.identifier "f", .identifier "x"]) :=
    (program_iff_of_split apart.inner rfl (terminated_concat _ rfl)).mpr (.body apart)
  have dropped : Reclosed (openEnded ++ [sample .semicolon] ++ grouped) (openEnded ++ grouped) :=
    .opened .nil first rfl (alone second)
  have added : Reclosed (openEnded ++ grouped) (openEnded ++ (grouped ++ [sample .semicolon])) := by
    simpa using Reclosed.closed (alone first) second (s := sample .semicolon) rfl .nil
  refine ⟨accepted, ?_⟩
  exact program_reterminated accepted (.tail (.single dropped) added)

end LetLang.Grammar
