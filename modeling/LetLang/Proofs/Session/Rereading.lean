import LetLang.Proofs.Session.Bindings
import LetLang.Proofs.Session.Reads
import LetLang.Proofs.Value.Fields
import LetLang.Proofs.Value.Writing

namespace LetLang
open Token Grammar

structure Builtin (e : Environment) : Prop where
  null : e.lookup "null" = .ok .null
  boolean : ∀ b, e.lookup (if b then "true" else "false") = .ok (.boolean b)

theorem lookup_of_first {e : Environment} {front rest : List Binding}
    (h : e.innermost.bindings = front ++ rest) {name : String} {v : Value}
    (hv : (front.find? (·.name == name)).map Binding.value = some v) : e.lookup name = .ok v := by
  obtain ⟨b, hb, rfl⟩ := Option.map_eq_some_iff.mp hv
  have found : e.innermost.find? name = some b := by
    rw [Scope.find?, h, List.find?_append, hb, Option.some_or]
  simp only [Environment.lookup, Environment.find?, Environment.scopes, List.findSome?_cons, found]

theorem Session.Reachable.builtin {s : Session} (h : s.Reachable) : Builtin s.environment := by
  obtain ⟨rest, first⟩ := h.global_first
  refine ⟨lookup_of_first first rfl, fun b => ?_⟩
  cases b with
  | false => exact lookup_of_first first rfl
  | true => exact lookup_of_first first rfl

namespace Evaluation

variable {α β : Type} {e : Environment}

def Yields (m : Evaluation α) (e : Environment) (p : α → Prop) : Prop :=
  ∃ a, (m e).result = .ok a ∧ (m e).environment = e ∧ p a

theorem yields_pure {p : α → Prop} {a : α} (h : p a) : Yields (pure a) e p := ⟨a, rfl, rfl, h⟩

theorem Yields.imp {m : Evaluation α} {p q : α → Prop} (h : Yields m e p) (hq : ∀ a, p a → q a) :
    Yields m e q := by
  obtain ⟨a, result, environment, ha⟩ := h
  exact ⟨a, result, environment, hq a ha⟩

theorem Yields.bind {m : Evaluation α} {f : α → Evaluation β} {p : α → Prop} {q : β → Prop}
    (hm : Yields m e p) (hf : ∀ a, p a → Yields (f a) e q) : Yields (m >>= f) e q := by
  obtain ⟨a, result, environment, ha⟩ := hm
  obtain ⟨b, result', environment', hb⟩ := hf a ha
  rw [← environment] at result' environment'
  refine ⟨b, ?_, ?_, hb⟩
  · rw [bind_of_ok result]
    exact result'
  · rw [bind_of_ok result]
    exact environment'.trans environment

theorem Yields.arm {m : Evaluation Value} {p : Value → Prop} (h : Yields m e p) {d : Dispatch}
    {kind : Kind} (hk : kind ∈ d.evaluated) : Yields (d.arm kind m) e p := by
  obtain ⟨v, result, environment, hv⟩ := h
  obtain ⟨same, same'⟩ := Dispatch.arm_outcome hk m e
  exact ⟨v, same.trans result, same'.trans environment, hv⟩

theorem yields_lookup {name : String} {v : Value} (h : e.lookup name = .ok v) {p : Value → Prop}
    (hv : p v) : Yields (lookup name) e p :=
  ⟨v, by rw [lookup, h]; rfl, rfl, hv⟩

end Evaluation

namespace Value
open Evaluation

theorem keys_of_sameFields {fields others : List (String × Value)} (h : sameFields fields others) :
    fields.map Prod.fst = others.map Prod.fst := by
  induction fields generalizing others with
  | nil =>
    cases others with
    | nil => rfl
    | cons other others => cases h
  | cons field fields ih =>
    cases others with
    | nil => cases h
    | cons other others =>
      simp only [sameFields, Bool.and_eq_true, beq_iff_eq] at h
      rw [List.map_cons, List.map_cons, h.1.1, ih h.2]

mutual

theorem Plain.evaluates {v : Value} {e : Environment} (he : Builtin e) : Plain v →
    Yields (evaluate Dispatch.standard v.tree) e (v.same ·)
  | .null => by
    rw [tree, evaluate]
    have found : Yields (lookup "null") e (Value.null.same ·) := yields_lookup he.null rfl
    exact found.arm (by decide)
  | .boolean b => by
    rw [tree, evaluate]
    exact (yields_lookup (he.boolean b) (by simp [same])).arm (by decide)
  | .number hx => by
    obtain ⟨_, y, read, equal⟩ := hx.rereads
    rw [tree, read, Option.getD_some, evaluate]
    exact (yields_pure (by simpa [same] using equal)).arm (by decide)
  | .object h hd => by
    have fields := h.evaluates he [] (by simpa using hd)
    rw [tree, evaluate]
    refine Yields.arm ?_ (by decide)
    refine fields.bind ?_
    rintro _ ⟨es, rfl, equal⟩
    rw [Fields.ofList_of_nodup (keys_of_sameFields equal ▸ hd)]
    exact yields_pure (by simpa [same] using equal)

theorem PlainFields.evaluates {fields : List (String × Value)} {e : Environment} (he : Builtin e)
    (acc : Fields) : PlainFields fields → ((acc ++ fields).map Prod.fst).Nodup →
      Yields (evaluateFields Dispatch.standard acc (fieldTrees fields)) e
        (fun all => ∃ es, all = acc ++ es ∧ sameFields fields es)
  | .nil, _ => by
    rw [fieldTrees, evaluateFields]
    exact yields_pure ⟨[], (List.append_nil acc).symm, rfl⟩
  | .cons (k := k) (v := v) hk hv h, hd => by
    have entry : Yields (evaluateEntry Dispatch.standard (.property k (some v.tree))) e
        (fun entry => k = entry.1 ∧ v.same entry.2) := by
      rw [evaluateEntry]
      exact (hv.evaluates he).bind fun w equal => yields_pure ⟨rfl, equal⟩
    rw [fieldTrees, evaluateFields]
    refine entry.bind ?_
    rintro ⟨_, w⟩ ⟨rfl, equal⟩
    rw [List.map_append, List.map_cons] at hd
    have new : k ∉ acc.map Prod.fst := fun old =>
      (List.nodup_append.mp hd).2.2 k old k List.mem_cons_self rfl
    dsimp only
    rw [Fields.put_new new]
    have others := h.evaluates he (acc ++ [(k, w)]) (by simpa using hd)
    refine others.imp ?_
    rintro _ ⟨es, rfl, equal'⟩
    refine ⟨(k, w) :: es, by simp, ?_⟩
    simp only [sameFields, beq_self_eq_true, Bool.true_and, equal, equal']

end

end Value

theorem Value.Plain.reads {v : Value} (h : v.Plain) : Reads v.text [v.tree] := by
  have spaced := h.spaced Value.behind_nil
  rw [List.append_nil, List.append_nil] at spaced
  obtain ⟨ts, q, scans, said⟩ := spaced.scans Position.start
  have printed : PrintsStatements false v.words [v.tree] := by
    have statements := PrintsStatements.cons (.expression (h.prints 0)) .nil
    rwa [List.append_nil] at statements
  exact reads_iff.mpr ⟨ts, q, scans, printed.derives said⟩

theorem Session.Reachable.run_text {s : Session} (h : s.Reachable) {v : Value} (hv : v.Plain) :
    ∃ w, (s.run (some v.text)).result = .ok w ∧ v.same w ∧
      (s.run (some v.text)).session.environment = s.environment := by
  obtain ⟨result, environment⟩ := run_of_reads hv.reads s
  obtain ⟨w, hw, unchanged, equal⟩ := hv.evaluates h.builtin
  rw [evaluateAll_cons, Evaluation.bind_of_ok hw, evaluateAll_nil] at result environment
  exact ⟨w, result, equal, environment.trans unchanged⟩

def nestedValue : Value :=
  .object [("null", .number (.finite true .zero)), ("x", .object [("y", .boolean true)]),
    ("y", .number .one)]

theorem nestedValue_run_text :
    ∃ s, Session.start ⟨true, .plain, none⟩ Session.typedPath true (fun _ => .missing) =
        (⟨false, .plain, none⟩, .ok s) ∧ nestedValue.Plain ∧
      ∃ w, ((s.run (some "let x = y;")).session.run (some nestedValue.text)).result = .ok w ∧
        nestedValue.same w ∧
        ((s.run (some "let x = y;")).session.run (some nestedValue.text)).session.environment =
          (s.run (some "let x = y;")).session.environment := by
  have started := Session.start_typed ⟨true, .plain, none⟩ fun _ => .missing
  have letter : ∀ c ∈ ['x', 'y'], Spells [c] .identifier := by
    intro c hc
    have start : isIdentifierStart c := List.all_eq_true.mp rfl c hc
    refine .identifier start nofun ?_ ?_ <;> simp
  have one : Number.one.Plain := by
    have units : Magnitude.one ≤ 10000 * Magnitude.unit.units := by
      simp only [Magnitude.unit]
      exact Nat.le_mul_of_pos_left _ (by decide)
    exact .inr ⟨rfl, units⟩
  have inner : Value.Plain (.object [("y", .boolean true)]) :=
    .object (.cons (letter 'y' (by decide)) (.boolean true) .nil) (by simp)
  have plain : nestedValue.Plain :=
    .object (.cons (Value.spells_builtin "null" (by decide)) (.number (.inl rfl))
      (.cons (letter 'x' (by decide)) inner
        (.cons (letter 'y' (by decide)) (.number one) .nil))) (by simp)
  exact ⟨_, started, plain, Session.Reachable.run_text (.run _ (.start started)) plain⟩

end LetLang
