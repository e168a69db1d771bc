import LetLang.Proofs.Lexing.Layout
import LetLang.Proofs.Lexing.Refusals

namespace LetLang

def LexicalFault.down (k : Int) (fault : LexicalFault) : LexicalFault :=
  { fault with position := fault.position.down k }

namespace Token
open Position

theorem Refuses.down {p : Position} {cs : List Char} {fault : LexicalFault}
    (h : Refuses p cs fault) (k : Int) : Refuses (p.down k) cs (fault.down k) := by
  induction h with
  | here h hl => exact .here h hl
  | space h _ ih =>
    rw [down_after] at ih
    exact .space h ih
  | lexeme h hl _ ih =>
    rw [down_afterAll] at ih
    exact .lexeme h hl ih

theorem Scans.stop_line {q : Position} {cs : List Char} {ts : List Token}
    (h : Scans start cs ts q) : q.line = cs.count '\n' + 1 := by
  rw [h.stop_eq, start_afterAll, behind, Int.add_comm]

theorem scan_joined {above : String} {tokens : List Token} (h : scan above = .ok tokens)
    (below : String) :
    ∃ ts stop, tokens = ts ++ [stop] ∧ stop.kind = .endOfInput ∧
      (∀ t ∈ ts, t.kind ≠ .endOfInput) ∧
      (∀ us, scan below = .ok us → scan (above ++ "\n" ++ below) =
        .ok (ts ++ us.map (Token.down (above.toList.count '\n' + 1)))) ∧
      ∀ fault, scan below = .error fault → scan (above ++ "\n" ++ below) =
        .error (fault.down (above.toList.count '\n' + 1)) := by
  obtain ⟨ts, q, scans, rfl⟩ := exists_scans h
  refine ⟨ts, _, rfl, rfl, scans.inner, fun us scanned => ?_, fun fault refused => ?_⟩
  · obtain ⟨us, r, lower, rfl⟩ := exists_scans scanned
    rw [scans.scan_line, (lower.down q.line).scanFrom_eq, ← scans.stop_line, List.map_append]
    rfl
  · have lower := (refuses_of_error refused).down q.line
    rw [scans.scan_line, lower.scanFrom_eq, ← scans.stop_line]
    rfl

theorem scan_joined_point :
    scan "x\n2." = .ok [⟨.identifier, "x", ⟨1, 1⟩⟩, ⟨.number, "2.", ⟨2, 1⟩⟩,
      ⟨.endOfInput, "", ⟨2, 3⟩⟩] ∧
    scan ("x\n2." ++ "\n" ++ "5") = .ok [⟨.identifier, "x", ⟨1, 1⟩⟩, ⟨.number, "2.", ⟨2, 1⟩⟩,
      ⟨.number, "5", ⟨3, 1⟩⟩, ⟨.endOfInput, "", ⟨3, 2⟩⟩] ∧
    scan ("x\n2." ++ "\n" ++ "\n .5") = .error ⟨'.', ⟨4, 2⟩⟩ := by
  have scanned : scan "x\n2." = .ok [⟨.identifier, "x", ⟨1, 1⟩⟩, ⟨.number, "2.", ⟨2, 1⟩⟩,
      ⟨.endOfInput, "", ⟨2, 3⟩⟩] := by
    with_unfolding_all rfl
  have digit : Scans start ['5'] [⟨.number, "5", ⟨1, 1⟩⟩] ⟨1, 2⟩ :=
    .lexeme (l := ⟨.number, ['5'], []⟩) (by decide) rfl .nil
  have point : Refuses start ['\n', ' ', '.', '5'] ⟨'.', ⟨2, 2⟩⟩ :=
    .space rfl (.space rfl (.here (by decide) rfl))
  obtain ⟨ts, stop, split, _, _, joined, _⟩ := scan_joined scanned "5"
  obtain ⟨_, _, _, _, _, _, refused⟩ := scan_joined scanned "\n .5"
  have front := congrArg List.dropLast split
  rw [List.dropLast_concat] at front
  rw [← front] at joined
  exact ⟨scanned, joined _ digit.scanFrom_eq, refused _ point.scanFrom_eq⟩

end Token

end LetLang
