import LetLang.Proofs.Evaluation.Sequencing

namespace LetLang

mutual

def Node.postorder : Node → List Kind
  | .program body => postorderAll body ++ [.program]
  | .declaration _ none _ => [.declaration]
  | .declaration _ (some value) _ => value.postorder ++ [.declaration]
  | .assignment _ value => value.postorder ++ [.assignment]
  | .binary left right _ => left.postorder ++ right.postorder ++ [.binary]
  | .identifier _ => [.identifier]
  | .number _ => [.number]
  | .property _ none => [.property]
  | .property _ (some value) => value.postorder ++ [.property]
  | .object properties => postorderFields properties ++ [.object]

def postorderAll : List Node → List Kind
  | [] => []
  | n :: ns => n.postorder ++ postorderAll ns

def postorderFields : List Node → List Kind
  | [] => []
  | .property _ none :: ns => postorderFields ns
  | .property _ (some value) :: ns => value.postorder ++ postorderFields ns
  | n :: ns => n.postorder ++ postorderFields ns

end

def Node.field : Node → List Kind
  | .property _ none => []
  | .property _ (some value) => value.postorder
  | n => n.postorder

theorem postorderFields_cons (n : Node) (ns : List Node) :
    postorderFields (n :: ns) = n.field ++ postorderFields ns := by
  cases n with
  | property key value =>
    cases value with
    | none => rw [postorderFields, Node.field, List.nil_append]
    | some value => rw [postorderFields, Node.field]
  | _ =>
    rw [postorderFields, Node.field]
    all_goals
      intros
      contradiction

namespace Event

def kind? : Event → Option Kind
  | evaluated kind _ => some kind
  | _ => none

def kinds (log : List Event) : List Kind := log.filterMap kind?

theorem kinds_append (log log' : List Event) : kinds (log ++ log') = kinds log ++ kinds log' :=
  List.filterMap_append

end Event

namespace Evaluation
open Event

variable {α β : Type} {m : Evaluation α} {f : α → Evaluation β} {ks ls : List Kind}

structure Walks (m : Evaluation α) (ks : List Kind) : Prop where
  returns : ∀ {e a}, (m e).result = .ok a → kinds (m e).log = ks
  fails : ∀ {e fault}, (m e).result = .error fault → kinds (m e).log <+: ks

structure Covers (m : Evaluation α) (ks : List Kind) : Prop extends Walks m ks where
  short : ∀ {e fault}, (m e).result = .error fault → kinds (m e).log ≠ ks

theorem Walks.quiet (h : ∀ e, kinds (m e).log = []) : Walks m [] where
  returns _ := h _
  fails _ := h _ ▸ List.prefix_refl _

theorem Walks.fail (fault : EvalFault) (ks : List Kind) : Walks (fail fault : Evaluation α) ks where
  returns h := by cases h
  fails _ := List.nil_prefix

theorem Walks.bind (hm : Walks m ks) (hf : ∀ a, Walks (f a) ls) : Walks (m >>= f) (ks ++ ls) where
  returns {e a} h := by
    cases hr : (m e).result with
    | ok b =>
      rw [bind_of_ok hr] at h ⊢
      rw [kinds_append, hm.returns hr, (hf b).returns h]
    | error fault =>
      rw [bind_of_error hr] at h
      cases h
  fails {e fault} h := by
    cases hr : (m e).result with
    | ok b =>
      rw [bind_of_ok hr] at h ⊢
      rw [kinds_append, hm.returns hr, List.prefix_append_right_inj]
      exact (hf b).fails h
    | error fault =>
      rw [bind_of_error hr]
      exact (hm.fails hr).trans (List.prefix_append ks ls)

theorem Walks.bind_quiet (hm : Walks m ks) (hf : ∀ a, Walks (f a) []) : Walks (m >>= f) ks := by
  have walks := hm.bind hf
  rwa [List.append_nil] at walks

theorem Walks.pure (a : α) : Walks (pure a : Evaluation α) [] := .quiet fun _ => rfl

theorem Walks.lookup (name : String) : Walks (lookup name) [] := .quiet fun _ => rfl

theorem Walks.declare (name : String) (value : Value) (constant : Bool) :
    Walks (declare name value constant) [] := by
  refine .quiet fun e => ?_
  unfold Evaluation.declare
  split
  · rfl
  · rfl

theorem Walks.assign (name : String) (value : Value) : Walks (assign name value) [] := by
  refine .quiet fun e => ?_
  unfold Evaluation.assign
  split
  · rfl
  · rfl

theorem Walks.operate (operator : String) (left right : Value) :
    Walks (operate operator left right) [] := by
  unfold Evaluation.operate
  split
  · split
    · exact .pure _
    · exact .fail _ _
  · exact .fail _ _

theorem Covers.fail (fault : EvalFault) (h : ks ≠ []) : Covers (fail fault : Evaluation α) ks where
  toWalks := .fail fault ks
  short _ := h.symm

theorem Walks.arm {m : Evaluation Value} (h : Walks m ks) (d : Dispatch) (kind : Kind) :
    Covers (d.arm kind m) (ks ++ [kind]) := by
  unfold Dispatch.arm
  split
  · have logged : ∀ v : Value, Walks (do emit (.evaluated kind v); return v) [kind] := fun v =>
      ⟨fun _ => rfl, fun h => by cases h⟩
    refine ⟨h.bind logged, fun {e fault} hr => ?_⟩
    cases hm : (m e).result with
    | ok v =>
      rw [bind_of_ok hm] at hr
      cases hr
    | error fault =>
      rw [bind_of_error hm]
      intro whole
      have bound := (h.fails hm).length_le
      rw [whole, List.length_append] at bound
      exact absurd bound (Nat.not_succ_le_self ks.length)
  · exact .fail _ (by simp)

theorem assignment_covers (d : Dispatch) (target : Node) {value : Node}
    (hv : Walks (evaluate d value) ks) :
    Covers (evaluate d (.assignment target value)) (ks ++ [.assignment]) := by
  rcases evaluate_assignment_cases d target value with ⟨name, assigns⟩ | refused
  · rw [assigns]
    exact (hv.bind_quiet fun v => .assign name v).arm d _
  · rw [refused]
    exact Walks.arm (.fail _ _) d _

end Evaluation

open Evaluation in
mutual

theorem evaluate_covers (d : Dispatch) : ∀ n : Node, Covers (evaluate d n) n.postorder
  | .program body => by
    rw [evaluate, Node.postorder]
    exact (evaluateAll_walks d body .null).arm d _
  | .declaration name none constant => by
    rw [evaluate, Node.postorder]
    exact (Walks.declare name .null constant).arm d _
  | .declaration name (some value) constant => by
    rw [evaluate, Node.postorder]
    exact ((evaluate_covers d value).bind_quiet fun v => .declare name v constant).arm d _
  | .assignment target value => by
    rw [Node.postorder]
    exact assignment_covers d target (evaluate_covers d value).toWalks
  | .binary left right operator => by
    rw [evaluate, Node.postorder]
    exact ((evaluate_covers d left).bind fun x =>
      (evaluate_covers d right).bind_quiet fun y => .operate operator x y).arm d _
  | .identifier name => by
    rw [evaluate, Node.postorder]
    exact (Walks.lookup name).arm d _
  | .number x => by
    rw [evaluate, Node.postorder]
    exact (Walks.pure _).arm d _
  | .property key none => by
    rw [evaluate, Node.postorder]
    exact .fail _ (by simp)
  | .property key (some value) => by
    rw [evaluate, Node.postorder]
    exact .fail _ (by simp)
  | .object properties => by
    rw [evaluate, Node.postorder]
    exact ((evaluateFields_walks d properties []).bind_quiet fun _ => .pure _).arm d _

theorem evaluateAll_walks (d : Dispatch) :
    ∀ (ns : List Node) (last : Value), Walks (evaluateAll d last ns) (postorderAll ns)
  | [], last => by
    rw [evaluateAll, postorderAll]
    exact .pure last
  | n :: ns, last => by
    rw [evaluateAll, postorderAll]
    exact (evaluate_covers d n).bind fun v => evaluateAll_walks d ns v

theorem evaluateFields_walks (d : Dispatch) :
    ∀ (ns : List Node) (fields : Fields), Walks (evaluateFields d fields ns) (postorderFields ns)
  | [], fields => by
    rw [evaluateFields, postorderFields]
    exact .pure fields
  | n :: ns, fields => by
    rw [evaluateFields, postorderFields_cons]
    exact (evaluateEntry_walks d n).bind fun entry => evaluateFields_walks d ns _

theorem evaluateEntry_walks (d : Dispatch) : ∀ n : Node, Walks (evaluateEntry d n) n.field
  | .property key none => by
    rw [evaluateEntry, Node.field]
    exact (Walks.lookup key).bind_quiet fun _ => .pure _
  | .property key (some value) => by
    rw [evaluateEntry, Node.field]
    exact (evaluate_covers d value).bind_quiet fun _ => .pure _
  | .declaration _ none _ => by
    rw [evaluateEntry]
    exact .fail _ _
  | .declaration _ (some value) _ => by
    rw [evaluateEntry, Node.field, Node.postorder]
    · exact (evaluate_covers d value).bind fun _ => .fail _ _
    all_goals
      intros
      contradiction
  | .assignment _ value => by
    rw [evaluateEntry, Node.field, Node.postorder]
    · exact (evaluate_covers d value).bind fun _ => .fail _ _
    all_goals
      intros
      contradiction
  | .number _ => by
    rw [evaluateEntry]
    exact .fail _ _
  | .program _ | .binary _ _ _ | .identifier _ | .object _ => by
    rw [evaluateEntry_other d (by simp [Node.kind])]
    exact .fail _ _

end

theorem evaluate_postorder (d : Dispatch) (n : Node) (e : Environment) :
    Event.kinds (evaluate d n e).log <+: n.postorder ∧
      (Event.kinds (evaluate d n e).log = n.postorder ↔ ∃ v, (evaluate d n e).result = .ok v) := by
  have covers := evaluate_covers d n
  cases h : (evaluate d n e).result with
  | ok v =>
    have whole := covers.returns h
    exact ⟨whole ▸ List.prefix_rfl, fun _ => ⟨v, rfl⟩, fun _ => whole⟩
  | error fault =>
    refine ⟨covers.fails h, fun whole => absurd whole (covers.short h), ?_⟩
    rintro ⟨v, hv⟩
    cases hv

example : (Node.assignment (.identifier "x") (.object [.property "y" none,
    .property "z" (some (.binary (.identifier "u") (.identifier "v") "+"))])).postorder =
    [.identifier, .identifier, .binary, .object, .assignment] := by
  decide

end LetLang
