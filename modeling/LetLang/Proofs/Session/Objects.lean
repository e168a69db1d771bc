import LetLang.Proofs.Evaluation.Invariants
import LetLang.Proofs.Evaluation.Objects
import LetLang.Proofs.Session.Bindings

namespace LetLang

namespace Session

variable {P : Value → Prop} {s : Session}

structure Bears (P : Value → Prop) (s : Session) : Prop where
  bindings : s.environment.Bears P
  results : ∀ v ∈ s.results, P v

theorem bears_global (h : Value.Stable P) (hb : ∀ b, P (.boolean b)) (path : String)
    (source : Option String) (reporter : Reporter) :
    Bears P ⟨.global, [], path, source, reporter⟩ where
  bindings := by
    have global : Scope.global.Bears P := by
      simp [Scope.Bears, Scope.bindings, Scope.global, h.null, hb]
    exact Environment.bears_iff.mpr ⟨global, by simp [Environment.global]⟩
  results := by simp

theorem Bears.parse (hs : s.Bears P) (source : String) : (s.parse source).session.Bears P := by
  rw [parse_session]
  exact ⟨hs.bindings, hs.results⟩

theorem Bears.execute (hs : s.Bears P) (h : Value.Stable P) (body : List Node) :
    (s.execute body).session.Bears P := by
  obtain ⟨kept, result⟩ := h.evaluate .standard (.program body) s.environment hs.bindings
  cases ho : (evaluate .standard (.program body) s.environment).result with
  | ok v =>
    simp only [Session.execute, ho]
    refine ⟨kept, ?_⟩
    exact List.forall_mem_append.mpr ⟨hs.results, List.forall_mem_singleton.mpr (result v ho)⟩
  | error fault =>
    simp only [Session.execute, ho]
    exact ⟨kept, hs.results⟩

theorem Bears.runSource (hs : s.Bears P) (h : Value.Stable P) (source : String) :
    (s.runSource source).session.Bears P := by
  have parsed := hs.parse source
  cases hp : (s.parse source).result with
  | ok body =>
    simp only [Session.runSource, hp]
    exact parsed.execute h body
  | error failure =>
    simp only [Session.runSource, hp]
    exact parsed

theorem Bears.run (hs : s.Bears P) (h : Value.Stable P) (source : Option String) :
    (s.run source).session.Bears P := by
  unfold Session.run
  split
  · exact hs.runSource h _
  · exact hs

theorem Bears.pop (hs : s.Bears P) : s.pop.session.Bears P := by
  unfold Session.pop
  split
  · exact hs
  · rename_i v rest results
    exact ⟨hs.bindings, fun w hw => hs.results w (results ▸ List.mem_cons_of_mem v hw)⟩

theorem Reachable.bears (hs : s.Reachable) (h : Value.Stable P) (hb : ∀ b, P (.boolean b)) :
    s.Bears P := by
  induction hs with
  | start started =>
    rw [start_eq started]
    exact bears_global h hb _ _ _
  | parse source _ ih => exact ih.parse source
  | run source _ ih => exact ih.run h source
  | pop _ ih => exact ih.pop

end Session

theorem object_fields_merged :
    (∀ (d : Dispatch) (properties : List Node) (e : Environment) (v : Value),
      (evaluate d (.object properties) e).result = .ok v →
      ∃ (entries : List (String × Value)) (fields : Fields),
        EntersAll d e properties entries (evaluate d (.object properties) e).environment ∧
        v = .object fields ∧ fields.map Prod.fst = (entries.map Prod.fst).eraseDups ∧
        ∀ front key value behind, entries = front ++ (key, value) :: behind →
          key ∉ behind.map Prod.fst → (key, value) ∈ fields ∧ fields.get? key = some value) ∧
    ∀ s : Session, s.Reachable →
      (∀ scope ∈ s.environment.scopes, ∀ b ∈ scope.bindings, b.value.KeysDistinct) ∧
      ∀ v ∈ s.results, v.KeysDistinct := by
  constructor
  · intro d properties e v result
    obtain ⟨entries, enter, rfl⟩ := evaluate_object_enters result
    refine ⟨entries, .ofList entries, enter, rfl, Fields.keys_ofList entries, ?_⟩
    rintro front key value behind rfl last
    have kept := Fields.get?_ofList_last front last value
    exact ⟨Fields.mem_of_get? kept, kept⟩
  · intro s reachable
    have bears := reachable.bears Value.keysDistinct_stable fun _ => Value.keysDistinct_atom nofun
    exact ⟨bears.bindings, bears.results⟩

def repeating : Node :=
  .object [.property "x" (some (.assignment (.identifier "u") (.identifier "true"))),
    .property "y" (some (.identifier "u")), .property "x" (some (.identifier "null"))]

def unassigned : Environment :=
  ⟨.ofBindings [⟨"u", .null, false⟩] (List.nodup_singleton _), [.global]⟩

theorem repeating_fields_merged :
    (evaluate .standard repeating unassigned).result =
        .ok (.object [("x", .null), ("y", .boolean true)]) ∧
      (∃ entries : List (String × Value), ["x", "y"] = (entries.map Prod.fst).eraseDups ∧
        ∀ front value behind, entries = front ++ ("x", value) :: behind →
          "x" ∉ behind.map Prod.fst → value = .null) ∧
      ∃ s, Session.start ⟨true, .plain, none⟩ Session.typedPath true (fun _ => .missing) =
          (⟨false, .plain, none⟩, .ok s) ∧
        ∀ v ∈ (s.run (some "let o = \x7b x: null, x: true \x7d;")).session.results,
          v.KeysDistinct := by
  have result : (evaluate .standard repeating unassigned).result =
      .ok (.object [("x", .null), ("y", .boolean true)]) := by
    rfl
  obtain ⟨entries, fields, _, same, keys, last⟩ := object_fields_merged.1 _ _ _ _ result
  have started := Session.start_typed ⟨true, .plain, none⟩ fun _ => .missing
  cases same
  refine ⟨result, ⟨entries, keys, ?_⟩, _, started,
    (object_fields_merged.2 _ (.run _ (.start started))).2⟩
  intro front value behind split unrepeated
  have found := (last front "x" value behind split unrepeated).2
  exact (Option.some.inj found).symm

end LetLang
