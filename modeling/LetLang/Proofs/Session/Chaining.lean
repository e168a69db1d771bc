import LetLang.Proofs.Evaluation.Chaining
import LetLang.Proofs.Lexing.Spacing
import LetLang.Proofs.Session.LineEnds

namespace LetLang
open Token Grammar

namespace Grammar
open LetLang.Parser

variable {S : Position → Position → Prop} {ts us : List Token} {n : Node}

theorem Sum.alike (h : List.Forall₂ (Alike S) ts us) (hs : Sum ts n) : Sum us n := by
  have terminator : Token := sample .endOfInput
  have ends : Ends [] := trivial
  have reads := sum_reads terminator hs [] trivial
  rw [List.append_nil, sumTail_ends terminator ends] at reads
  have same := sum_moved moves_unplaced terminator us
  rw [← unplaced_eq h, sum_moved moves_unplaced terminator ts, reads, Reading.moved_ok] at same
  rcases there : (sum terminator us).reading with ⟨fault | m, rest⟩
  · rw [there] at same
    cases same
  · rw [there, Reading.moved_ok] at same
    obtain ⟨node, left⟩ := Prod.mk.inj same
    obtain rfl : n = m := Except.ok.inj node
    obtain rfl : rest = [] := List.map_eq_nil_iff.mp left.symm
    obtain ⟨vs, split, derived⟩ := (sum_obeys terminator us).of_ok there
    rwa [split, List.append_nil]

end Grammar

def chainText (names : List String) (source : String) : String :=
  " = ".intercalate (names ++ [source])

theorem chainText_cons (name : String) (names : List String) (source : String) :
    (chainText (name :: names) source).toList =
      name.toList ++ ' ' :: ("=".toList ++ ' ' :: (chainText names source).toList) := by
  have nonempty : names ++ [source] ≠ [] :=
    List.append_ne_nil_of_right_ne_nil names (List.cons_ne_nil source [])
  obtain ⟨first, others, split⟩ := List.exists_cons_of_ne_nil nonempty
  rw [chainText, chainText, List.cons_append, split, String.intercalate_cons_cons,
    String.toList_append, String.toList_append, List.append_assoc]
  rfl

theorem target_scans {name : String} (h : Spells name.toList .identifier) (rest : List Char)
    (p : Position) : ∃ sign r, sign.kind = .equals ∧ ∀ ts q, Scans r rest ts q →
      Scans p (name.toList ++ ' ' :: ("=".toList ++ ' ' :: rest))
        (⟨.identifier, name, p⟩ :: sign :: ts) q := by
  have equals : Spells "=".toList .equals := .symbol rfl
  refine ⟨⟨.equals, "=", (p.afterAll name.toList).after ' '⟩,
    (((p.afterAll name.toList).after ' ').afterAll "=".toList).after ' ', rfl, ?_⟩
  intro ts q scans
  have behindName := equals.scans (detached_cons _ (breaks_of_space rfl) _) (.space rfl scans)
  exact h.scans (detached_cons _ (breaks_of_space rfl) _) (.space rfl behindName)

theorem chained_scans {names : List String} {source : String} {n : Node}
    (spelled : ∀ name ∈ names, Spells name.toList .identifier)
    (value : ∀ p, ∃ ts q, Scans p source.toList ts q ∧ Sum ts n) (p : Position) :
    ∃ ts q, Scans p (chainText names source).toList ts q ∧ Expression ts (n.chained names) := by
  induction names generalizing p with
  | nil =>
    obtain ⟨ts, q, scans, sum⟩ := value p
    refine ⟨ts, q, ?_, .sum sum⟩
    rwa [chainText, List.nil_append, String.intercalate_singleton]
  | cons name names ih =>
    obtain ⟨first, others⟩ := List.forall_mem_cons.mp spelled
    obtain ⟨sign, r, equals, written⟩ := target_scans first (chainText names source).toList p
    obtain ⟨ts, q, scans, derived⟩ := ih others r
    have target : Sum [⟨.identifier, name, p⟩] (.identifier name) :=
      .product (.primary (.identifier rfl))
    refine ⟨_, q, ?_, .assignment target equals derived⟩
    rw [chainText_cons]
    exact written ts q scans

theorem chained_parses {names : List String} {source : String} {tokens : List Token} {n : Node}
    (spelled : ∀ name ∈ names, Spells name.toList .identifier)
    (scanned : scan source = .ok tokens) (sum : Sum (beforeEnd tokens) n) :
    ∃ ts, scan (chainText names source) = .ok ts ∧
      Parser.program ts = .ok (.program [n.chained names]) := by
  obtain ⟨us, q, scans, rfl⟩ := exists_scans scanned
  rw [beforeEnd_append_cons scans.inner rfl] at sum
  have value : ∀ p, ∃ ts q, Scans p source.toList ts q ∧ Sum ts n := by
    intro p
    obtain ⟨ts, q, scans, alike⟩ := scans.elsewhere p
    exact ⟨ts, q, scans, sum.alike alike⟩
  obtain ⟨ts, q, scans, derived⟩ := chained_scans spelled value .start
  have statements : Statements ts [n.chained names] := by
    simpa using Statements.cons (.expression derived) .nil
  refine ⟨_, scans.scanFrom_eq, ?_⟩
  exact (program_iff_of_split derived.inner rfl (terminated_concat ts rfl)).mpr (.body statements)

theorem chained_assigns {names : List String} {source : String} {tokens : List Token} {n : Node}
    (spelled : ∀ name ∈ names, Spells name.toList .identifier)
    (scanned : scan source = .ok tokens) (sum : Sum (beforeEnd tokens) n) :
    (∃ ts, scan (chainText names source) = .ok ts ∧
      Parser.program ts = .ok (.program [n.chained names])) ∧
    ∀ e, ChainEnds names (evaluate .standard n e) (evaluate .standard (n.chained names) e) ∧
      ((∃ v, (evaluate .standard (n.chained names) e).result = .ok v) ↔
        (∃ v, (evaluate .standard n e).result = .ok v) ∧
          ∀ name ∈ names, (evaluate .standard n e).environment.isConstant name = .ok false) := by
  refine ⟨chained_parses spelled scanned sum, fun e => ?_⟩
  have ends := chained_ends names n e
  exact ⟨ends, ends.succeeds_iff⟩

def threeNames : Environment where
  innermost := .ofBindings [⟨"a", .boolean false, false⟩, ⟨"b", .boolean false, false⟩,
    ⟨"c", .boolean false, false⟩] (by simp)
  enclosing := [.global]

def targets : List String := ["c", "true", "a", "b", "a"]

def assigning : List Token :=
  [⟨.openParen, "(", ⟨1, 1⟩⟩, ⟨.identifier, "b", ⟨1, 2⟩⟩, ⟨.equals, "=", ⟨1, 4⟩⟩,
    ⟨.identifier, "null", ⟨1, 6⟩⟩, ⟨.closeParen, ")", ⟨1, 10⟩⟩]

def assigningNode : Node := .assignment (.identifier "b") (.identifier "null")

theorem targets_assigned :
    (∀ name ∈ targets, Spells name.toList .identifier) ∧
    scan "(b = null)" = .ok (assigning ++ [⟨.endOfInput, "", ⟨1, 11⟩⟩]) ∧
    Sum assigning assigningNode ∧
    (∃ ts, scan "c = true = a = b = a = (b = null)" = .ok ts ∧
      Parser.program ts = .ok (.program [assigningNode.chained targets])) ∧
    ∃ o, evaluate .standard (assigningNode.chained targets) threeNames = o ∧
      ChainEnds targets (evaluate .standard assigningNode threeNames) o ∧
      o.result = .error (.name (.constant "true")) ∧
      o.environment.lookup "a" = .ok .null ∧ o.environment.lookup "c" = .ok (.boolean false) := by
  have spelled : ∀ name ∈ targets, Spells name.toList .identifier := by
    have a : Spells ['a'] .identifier := spells_word rfl nofun
    have b : Spells ['b'] .identifier := spells_word rfl nofun
    have c : Spells ['c'] .identifier := spells_word rfl nofun
    have constant : Spells ['t', 'r', 'u', 'e'] .identifier :=
      spells_word rfl (List.all_eq_true.mp rfl)
    simpa [targets] using ⟨c, constant, a, b, a⟩
  have scanned : scan "(b = null)" = .ok (assigning ++ [⟨.endOfInput, "", ⟨1, 11⟩⟩]) := by
    with_unfolding_all rfl
  have inside : Expression [⟨.identifier, "b", ⟨1, 2⟩⟩, ⟨.equals, "=", ⟨1, 4⟩⟩,
      ⟨.identifier, "null", ⟨1, 6⟩⟩] assigningNode := by
    have target : Sum [⟨.identifier, "b", ⟨1, 2⟩⟩] (.identifier "b") :=
      .product (.primary (.identifier rfl))
    have value : Expression [⟨.identifier, "null", ⟨1, 6⟩⟩] (.identifier "null") :=
      .sum (.product (.primary (.identifier rfl)))
    exact .assignment target (t := ⟨.equals, "=", ⟨1, 4⟩⟩) rfl value
  have sum : Sum assigning assigningNode :=
    .product (.primary (.parentheses (o := ⟨.openParen, "(", ⟨1, 1⟩⟩)
      (c := ⟨.closeParen, ")", ⟨1, 10⟩⟩) rfl inside rfl))
  have front : Sum (beforeEnd (assigning ++ [⟨.endOfInput, "", ⟨1, 11⟩⟩])) assigningNode := by
    rwa [beforeEnd_append_cons sum.inner rfl]
  obtain ⟨parsed, ends⟩ := chained_assigns spelled scanned front
  exact ⟨spelled, scanned, sum, parsed, _, rfl, (ends threeNames).1, rfl, rfl, rfl⟩

end LetLang
