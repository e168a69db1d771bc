import LetLang.Proofs.Evaluation.Sequencing
import LetLang.Proofs.Value.Fields

namespace LetLang

structure Value.Stable (P : Value → Prop) : Prop where
  null : P .null
  number : ∀ x, P (.number x)
  object : ∀ fields : Fields, fields.Sound P → P (.object fields)

theorem Value.keysDistinct_stable : Value.Stable Value.KeysDistinct where
  null := keysDistinct_atom nofun
  number _ := keysDistinct_atom nofun
  object _ := keysDistinct_object

variable {P : Value → Prop}

def Scope.Bears (P : Value → Prop) (s : Scope) : Prop := ∀ b ∈ s.bindings, P b.value

def Environment.Bears (P : Value → Prop) (e : Environment) : Prop := ∀ s ∈ e.scopes, s.Bears P

theorem Scope.Bears.set {s : Scope} (h : s.Bears P) (name : String) {value : Value}
    (hv : P value) : (s.set name value).Bears P := by
  intro b member
  rw [bindings_set] at member
  obtain ⟨old, held, rfl⟩ := List.mem_map.mp member
  split
  · exact hv
  · exact h old held

namespace Environment

variable {e e' : Environment} {name : String} {value : Value}

theorem bears_iff : e.Bears P ↔ e.innermost.Bears P ∧ ∀ s ∈ e.enclosing, s.Bears P :=
  List.forall_mem_cons

theorem Bears.lookup (h : e.Bears P) (hl : e.lookup name = .ok value) : P value := by
  unfold Environment.lookup at hl
  split at hl
  · rename_i b found
    cases hl
    obtain ⟨s, member, held⟩ := List.exists_of_findSome?_eq_some found
    exact h s member b (List.mem_of_find?_eq_some held)
  · cases hl

theorem Bears.declare (h : e.Bears P) (hv : P value) {constant : Bool}
    (hd : e.declare name value constant = .ok e') : e'.Bears P := by
  unfold Environment.declare at hd
  split at hd
  · cases hd
  · cases hd
    obtain ⟨innermost, enclosing⟩ := bears_iff.mp h
    refine bears_iff.mpr ⟨?_, enclosing⟩
    rw [Scope.Bears, Scope.bindings_add]
    exact List.forall_mem_append.mpr ⟨innermost, List.forall_mem_singleton.mpr hv⟩

theorem bears_setNearest {scopes : List Scope} (h : ∀ s ∈ scopes, s.Bears P) (name : String)
    (hv : P value) : ∀ s ∈ setNearest name value scopes, s.Bears P := by
  induction scopes with
  | nil => exact h
  | cons s rest ih =>
    obtain ⟨first, others⟩ := List.forall_mem_cons.mp h
    rw [setNearest]
    split
    · exact List.forall_mem_cons.mpr ⟨first.set name hv, others⟩
    · exact List.forall_mem_cons.mpr ⟨first, ih others⟩

theorem Bears.assign (h : e.Bears P) (hv : P value) (ha : e.assign name value = .ok e') :
    e'.Bears P := by
  rw [Bears, scopes_assign ha]
  exact bears_setNearest h name hv

end Environment

namespace Evaluation

variable {α β : Type} {p : α → Prop} {q : β → Prop}

def Keeps (P : Value → Prop) (m : Evaluation α) (p : α → Prop) : Prop :=
  ∀ e, e.Bears P → (m e).environment.Bears P ∧ ∀ a, (m e).result = .ok a → p a

theorem keeps_pure {a : α} (h : p a) : Keeps P (pure a) p := by
  refine fun e he => ⟨he, ?_⟩
  rintro _ ⟨⟩
  exact h

theorem keeps_fail (fault : EvalFault) (p : α → Prop) : Keeps P (fail fault) p :=
  fun _ he => ⟨he, nofun⟩

theorem Keeps.bind {m : Evaluation α} {f : α → Evaluation β} (hm : Keeps P m p)
    (hf : ∀ a, p a → Keeps P (f a) q) : Keeps P (m >>= f) q := by
  intro e he
  obtain ⟨kept, result⟩ := hm e he
  cases hr : (m e).result with
  | ok a =>
    rw [bind_of_ok hr]
    exact hf a (result a hr) _ kept
  | error fault =>
    rw [bind_of_error hr]
    exact ⟨kept, nofun⟩

theorem keeps_lookup (name : String) : Keeps P (lookup name) P :=
  fun _ he => ⟨he, fun _ found => he.lookup (lookup_eq_ok.mp found)⟩

theorem keeps_declare (name : String) {value : Value} (hv : P value) (constant : Bool) :
    Keeps P (declare name value constant) P := by
  intro e he
  unfold declare
  split
  · rename_i declared
    refine ⟨he.declare hv declared, ?_⟩
    rintro _ ⟨⟩
    exact hv
  · exact ⟨he, nofun⟩

theorem keeps_assign (name : String) {value : Value} (hv : P value) :
    Keeps P (assign name value) P := by
  intro e he
  unfold assign
  split
  · rename_i assigned
    refine ⟨he.assign hv assigned, ?_⟩
    rintro _ ⟨⟩
    exact hv
  · exact ⟨he, nofun⟩

theorem keeps_operate (h : Value.Stable P) (operator : String) (left right : Value) :
    Keeps P (operate operator left right) P := by
  unfold operate
  split
  · split
    · exact keeps_pure (h.number _)
    · exact keeps_fail _ P
  · exact keeps_fail _ P

theorem Keeps.arm {m : Evaluation Value} (hm : Keeps P m P) (d : Dispatch) (kind : Kind) :
    Keeps P (d.arm kind m) P := by
  unfold Dispatch.arm
  split
  · have logged : ∀ v, P v → Keeps P (do emit (.evaluated kind v); return v) P := by
      refine fun v hv e he => ⟨he, ?_⟩
      rintro _ ⟨⟩
      exact hv
    exact hm.bind logged
  · exact keeps_fail _ P

theorem Keeps.assignment {value : Node} {d : Dispatch} (target : Node)
    (hv : Keeps P (evaluate d value) P) : Keeps P (evaluate d (.assignment target value)) P := by
  rcases evaluate_assignment_cases d target value with ⟨name, assigns⟩ | refused
  · rw [assigns]
    exact (hv.bind fun v hv => keeps_assign name hv).arm d _
  · rw [refused]
    exact (keeps_fail _ P).arm d _

end Evaluation

namespace Value.Stable
open Evaluation

mutual

theorem evaluate (h : Value.Stable P) (d : Dispatch) :
    ∀ n : Node, Keeps P (LetLang.evaluate d n) P
  | .program body => by
    rw [LetLang.evaluate]
    exact (h.evaluateAll d body h.null).arm d _
  | .declaration name none constant => by
    rw [LetLang.evaluate]
    exact (keeps_declare name h.null constant).arm d _
  | .declaration name (some value) constant => by
    rw [LetLang.evaluate]
    exact ((h.evaluate d value).bind fun v hv => keeps_declare name hv constant).arm d _
  | .assignment target value => (h.evaluate d value).assignment target
  | .binary left right operator => by
    rw [LetLang.evaluate]
    exact ((h.evaluate d left).bind fun x _ => (h.evaluate d right).bind fun y _ =>
      keeps_operate h operator x y).arm d _
  | .identifier name => by
    rw [LetLang.evaluate]
    exact (keeps_lookup name).arm d _
  | .number x => by
    rw [LetLang.evaluate]
    exact (keeps_pure (h.number x)).arm d _
  | .property _ _ => by
    rw [LetLang.evaluate]
    exact keeps_fail _ P
  | .object properties => by
    rw [LetLang.evaluate]
    exact ((h.evaluateFields d properties (.nil P)).bind fun fields sound =>
      keeps_pure (h.object _ sound.ofList)).arm d _

theorem evaluateAll (h : Value.Stable P) (d : Dispatch) :
    ∀ (ns : List Node) {last : Value}, P last → Keeps P (LetLang.evaluateAll d last ns) P
  | [], last, hl => by
    rw [LetLang.evaluateAll]
    exact keeps_pure hl
  | n :: ns, last, hl => by
    rw [LetLang.evaluateAll]
    exact (h.evaluate d n).bind fun v hv => h.evaluateAll d ns hv

theorem evaluateFields (h : Value.Stable P) (d : Dispatch) :
    ∀ (ns : List Node) {fields : Fields}, fields.Sound P →
      Keeps P (LetLang.evaluateFields d fields ns) (Fields.Sound P)
  | [], fields, hs => by
    rw [LetLang.evaluateFields]
    exact keeps_pure hs
  | n :: ns, fields, hs => by
    rw [LetLang.evaluateFields]
    exact (h.evaluateEntry d n).bind fun entry hv => h.evaluateFields d ns (hs.put entry.1 hv)

theorem evaluateEntry (h : Value.Stable P) (d : Dispatch) :
    ∀ n : Node, Keeps P (LetLang.evaluateEntry d n) (fun entry => P entry.2)
  | .property key none => by
    rw [LetLang.evaluateEntry]
    exact (keeps_lookup key).bind fun v hv => keeps_pure hv
  | .property key (some value) => by
    rw [LetLang.evaluateEntry]
    exact (h.evaluate d value).bind fun v hv => keeps_pure hv
  | .declaration _ none _ => by
    rw [LetLang.evaluateEntry]
    exact keeps_fail _ _
  | .declaration _ (some value) _ => by
    rw [LetLang.evaluateEntry]
    exact (h.evaluate d value).bind fun _ _ => keeps_fail _ _
  | .assignment _ value => by
    rw [LetLang.evaluateEntry]
    exact (h.evaluate d value).bind fun _ _ => keeps_fail _ _
  | .number _ => by
    rw [LetLang.evaluateEntry]
    exact keeps_fail _ _
  | .program _ | .binary _ _ _ | .identifier _ | .object _ => by
    rw [evaluateEntry_other d (by simp [Node.kind])]
    exact keeps_fail _ _

end

end Value.Stable

end LetLang
