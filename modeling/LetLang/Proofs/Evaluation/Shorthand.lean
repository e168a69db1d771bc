import LetLang.Proofs.Environment.Scopes
import LetLang.Proofs.Evaluation.Sequencing

namespace LetLang

mutual

inductive Expands : Node → Node → Prop where
  | program {body body' : List Node} (h : ExpandsAll body body') :
      Expands (.program body) (.program body')
  | bare (name : String) (constant : Bool) :
      Expands (.declaration name none constant) (.declaration name none constant)
  | declaration (name : String) {value value' : Node} (constant : Bool) (h : Expands value value') :
      Expands (.declaration name (some value) constant) (.declaration name (some value') constant)
  | assignment {target target' value value' : Node} (ht : Expands target target')
      (hv : Expands value value') : Expands (.assignment target value) (.assignment target' value')
  | binary {left left' right right' : Node} (operator : String) (hl : Expands left left')
      (hr : Expands right right') :
      Expands (.binary left right operator) (.binary left' right' operator)
  | identifier (name : String) : Expands (.identifier name) (.identifier name)
  | number (x : Number) : Expands (.number x) (.number x)
  | key (key : String) : Expands (.property key none) (.property key none)
  | property (key : String) {value value' : Node} (h : Expands value value') :
      Expands (.property key (some value)) (.property key (some value'))
  | object {ps ps' : List Node} (h : ExpandsFields ps ps') : Expands (.object ps) (.object ps')

inductive ExpandsAll : List Node → List Node → Prop where
  | nil : ExpandsAll [] []
  | cons {n n' : Node} {ns ns' : List Node} (hn : Expands n n') (h : ExpandsAll ns ns') :
      ExpandsAll (n :: ns) (n' :: ns')

inductive ExpandsFields : List Node → List Node → Prop where
  | nil : ExpandsFields [] []
  | written (key : String) {ps ps' : List Node} (h : ExpandsFields ps ps') :
      ExpandsFields (.property key none :: ps) (.property key (some (.identifier key)) :: ps')
  | kept {n n' : Node} {ps ps' : List Node} (hn : Expands n n') (h : ExpandsFields ps ps') :
      ExpandsFields (n :: ps) (n' :: ps')

end

theorem Expands.kind {n n' : Node} (h : Expands n n') : n'.kind = n.kind := by
  cases h <;> rfl

namespace Evaluation

variable {α β : Type}

def Like (m m' : Evaluation α) : Prop :=
  ∀ e, (m' e).result = (m e).result ∧ (m' e).environment = (m e).environment

theorem Like.refl (m : Evaluation α) : Like m m := fun _ => ⟨rfl, rfl⟩

theorem Like.bind {m m' : Evaluation α} {f f' : α → Evaluation β} (hm : Like m m')
    (hf : ∀ a, Like (f a) (f' a)) : Like (m >>= f) (m' >>= f') := by
  intro e
  obtain ⟨result, environment⟩ := hm e
  cases hr : (m e).result with
  | ok a =>
    rw [bind_of_ok hr, bind_of_ok (result.trans hr), environment]
    exact hf a _
  | error fault =>
    rw [bind_of_error hr, bind_of_error (result.trans hr)]
    exact ⟨rfl, environment⟩

theorem Like.arm {m m' : Evaluation Value} (h : Like m m') (d : Dispatch) (kind : Kind) :
    Like (d.arm kind m) (d.arm kind m') := by
  unfold Dispatch.arm
  split
  · exact h.bind fun v => .refl _
  · exact .refl _

theorem like_arm {d : Dispatch} {kind : Kind} (h : kind ∈ d.evaluated) (m : Evaluation Value) :
    Like m (d.arm kind m) :=
  fun e => Dispatch.arm_outcome h m e

theorem like_other (d : Dispatch) {n n' : Node} (same : n'.kind = n.kind)
    (h : n.kind ∈ [Kind.program, .binary, .identifier, .object]) :
    Like (evaluateEntry d n) (evaluateEntry d n') := by
  rw [evaluateEntry_other d h, evaluateEntry_other d (same ▸ h), same]
  exact .refl _

end Evaluation

open Evaluation

theorem Expands.assignment_like {target target' value value' : Node} (d : Dispatch)
    (ht : Expands target target') (hv : Like (evaluate d value) (evaluate d value')) :
    Like (evaluate d (.assignment target value)) (evaluate d (.assignment target' value')) := by
  by_cases named : ∃ name, target = .identifier name
  · obtain ⟨name, rfl⟩ := named
    cases ht
    rw [evaluate_assignment_name, evaluate_assignment_name]
    exact (hv.bind fun v => .refl _).arm d _
  · have unnamed : ∀ name, target' ≠ .identifier name := by
      rintro name rfl
      cases ht
      exact named ⟨name, rfl⟩
    rw [evaluate_assignment_other d fun name hn => named ⟨name, hn⟩,
      evaluate_assignment_other d unnamed, ht.kind]
    exact .refl _

mutual

theorem Expands.like {d : Dispatch} (hd : .identifier ∈ d.evaluated) {n n' : Node} :
    Expands n n' → Like (evaluate d n) (evaluate d n')
  | .program h => by
    rw [evaluate_program, evaluate_program]
    exact (h.like hd .null).arm d _
  | .bare name constant => .refl _
  | .declaration name constant h => by
    rw [evaluate, evaluate]
    exact ((h.like hd).bind fun v => .refl _).arm d _
  | .assignment ht hv => ht.assignment_like d (hv.like hd)
  | .binary operator hl hr => by
    rw [evaluate, evaluate]
    exact ((hl.like hd).bind fun x => (hr.like hd).bind fun y => .refl _).arm d _
  | .identifier name => .refl _
  | .number x => .refl _
  | .key key => .refl _
  | .property key h => by
    rw [evaluate, evaluate]
    exact .refl _
  | .object h => by
    rw [evaluate, evaluate]
    exact ((h.like hd []).bind fun fields => .refl _).arm d _

theorem ExpandsAll.like {d : Dispatch} (hd : .identifier ∈ d.evaluated) {ns ns' : List Node} :
    ExpandsAll ns ns' → ∀ last, Like (evaluateAll d last ns) (evaluateAll d last ns')
  | .nil, last => .refl _
  | .cons hn h, last => by
    rw [evaluateAll_cons, evaluateAll_cons]
    exact (hn.like hd).bind fun v => h.like hd v

theorem ExpandsFields.like {d : Dispatch} (hd : .identifier ∈ d.evaluated) {ps ps' : List Node} :
    ExpandsFields ps ps' → ∀ fields,
      Like (evaluateFields d fields ps) (evaluateFields d fields ps')
  | .nil, fields => .refl _
  | .written key h, fields => by
    have value : Like (lookup key) (evaluate d (.identifier key)) := by
      rw [evaluate]
      exact like_arm hd (lookup key)
    rw [evaluateFields, evaluateFields, evaluateEntry, evaluateEntry]
    exact (value.bind fun v => .refl _).bind fun entry => h.like hd _
  | .kept hn h, fields => by
    rw [evaluateFields, evaluateFields]
    exact (hn.entry_like hd).bind fun entry => h.like hd _

theorem Expands.entry_like {d : Dispatch} (hd : .identifier ∈ d.evaluated) {n n' : Node} :
    Expands n n' → Like (evaluateEntry d n) (evaluateEntry d n')
  | .key key => .refl _
  | .property key h => by
    rw [evaluateEntry, evaluateEntry]
    exact (h.like hd).bind fun v => .refl _
  | .bare name constant => .refl _
  | .declaration name constant h => by
    rw [evaluateEntry, evaluateEntry]
    exact (h.like hd).bind fun v => .refl _
  | .assignment ht hv => by
    rw [evaluateEntry, evaluateEntry]
    exact (hv.like hd).bind fun v => .refl _
  | .number x => .refl _
  | .identifier name => .refl _
  | .program h => like_other d rfl (by simp [Node.kind])
  | .binary operator hl hr => like_other d rfl (by simp [Node.kind])
  | .object h => like_other d rfl (by simp [Node.kind])

end

theorem evaluate_expanded {n n' : Node} (h : Expands n n') (e : Environment) :
    (evaluate .standard n' e).result = (evaluate .standard n e).result ∧
      (evaluate .standard n' e).environment = (evaluate .standard n e).environment :=
  h.like (by decide) e

def reassigning (properties : List Node) : Node :=
  .program [.declaration "o" (some (.object (
    .property "x" (some (.assignment (.identifier "x") (.identifier "true"))) :: properties))) false]

def oneName : Environment :=
  ⟨.ofBindings [⟨"x", .boolean false, false⟩] (List.nodup_singleton _), [.global]⟩

theorem reassigning_expanded :
    Expands (reassigning [.property "x" none, .property "u" none])
        (reassigning [.property "x" (some (.identifier "x")), .property "u" none]) ∧
      (evaluate .standard (reassigning [.property "x" (some (.identifier "x")), .property "u" none])
        oneName).result = .error (.name (.unbound "u")) ∧
      (evaluate .standard (reassigning [.property "x" (some (.identifier "x")), .property "u" none])
        oneName).environment.find? "x" = some ⟨"x", .boolean true, false⟩ := by
  have assigns : Expands (.assignment (.identifier "x") (.identifier "true"))
      (.assignment (.identifier "x") (.identifier "true")) :=
    .assignment (.identifier "x") (.identifier "true")
  have expands : Expands (reassigning [.property "x" none, .property "u" none])
      (reassigning [.property "x" (some (.identifier "x")), .property "u" none]) :=
    .program (.cons (.declaration "o" false (.object (.kept (.property "x" assigns)
      (.written "x" (.kept (.key "u") .nil))))) .nil)
  obtain ⟨result, environment⟩ := evaluate_expanded expands oneName
  refine ⟨expands, ?_, ?_⟩
  · rw [result]
    rfl
  · rw [environment]
    rfl

end LetLang
