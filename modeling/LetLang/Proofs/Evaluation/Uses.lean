import LetLang.Proofs.Evaluation.Sequencing

namespace LetLang

inductive Use where
  | read (name : String)
  | declare (name : String)
  | assign (name : String)
  deriving DecidableEq, Repr

namespace Use

def name : Use → String
  | read name => name
  | declare name => name
  | assign name => name

def written? : Use → Option String
  | read _ => none
  | declare name => some name
  | assign name => some name

def declared? : Use → Option String
  | declare name => some name
  | _ => none

def assigned? : Use → Option String
  | assign name => some name
  | _ => none

theorem written?_of_undeclared {u : Use} (h : u.declared? = none) : u.written? = u.assigned? := by
  cases u with
  | declare name => cases h
  | _ => rfl

end Use

mutual

def Node.uses : Node → List Use
  | .program body => usesAll body
  | .declaration name none _ => [.declare name]
  | .declaration name (some value) _ => value.uses ++ [.declare name]
  | .assignment (.identifier name) value => value.uses ++ [.assign name]
  | .assignment target value => target.uses ++ value.uses
  | .binary left right _ => left.uses ++ right.uses
  | .identifier name => [.read name]
  | .number _ => []
  | .property key none => [.read key]
  | .property _ (some value) => value.uses
  | .object properties => usesAll properties

def usesAll : List Node → List Use
  | [] => []
  | n :: ns => n.uses ++ usesAll ns

end

namespace Node

def mentioned (n : Node) : List String := n.uses.map Use.name

def written (n : Node) : List String := n.uses.filterMap Use.written?

def declared (n : Node) : List String := n.uses.filterMap Use.declared?

def assigned (n : Node) : List String := n.uses.filterMap Use.assigned?

def children : Node → List Node
  | program body => body
  | declaration _ value _ => value.toList
  | assignment target value => [target, value]
  | binary left right _ => [left, right]
  | identifier _ => []
  | number _ => []
  | property _ value => value.toList
  | object properties => properties

def nested (n : Node) : List String := n.children.flatMap assigned

theorem mem_mentioned {n : Node} {u : Use} (h : u ∈ n.uses) : u.name ∈ n.mentioned :=
  List.mem_map_of_mem h

theorem mem_uses_value {u : Use} (target : Node) {value : Node} (h : u ∈ value.uses) :
    u ∈ (assignment target value).uses := by
  by_cases ht : ∃ name, target = .identifier name
  · obtain ⟨name, rfl⟩ := ht
    rw [uses]
    exact List.mem_append_left _ h
  · rw [uses]
    · exact List.mem_append_right _ h
    · exact fun name hn => ht ⟨name, hn⟩

theorem of_mem_uses_assignment {u : Use} {target value : Node}
    (h : u ∈ (assignment target value).uses) :
    u ∈ target.uses ∨ u ∈ value.uses ∨ ∃ name, u = .assign name := by
  by_cases ht : ∃ name, target = .identifier name
  · obtain ⟨name, rfl⟩ := ht
    rw [uses, List.mem_append, List.mem_singleton] at h
    exact .inr (h.imp_right fun assigns => ⟨name, assigns⟩)
  · rw [uses, List.mem_append] at h
    · exact h.imp_right .inl
    · exact fun name hn => ht ⟨name, hn⟩

theorem mem_assigned {n : Node} {u : Use} {name : String} (hu : u ∈ n.uses)
    (hn : u.assigned? = some name) : name ∈ n.assigned :=
  List.mem_filterMap.mpr ⟨u, hu, hn⟩

theorem assigned_all (ns : List Node) :
    (usesAll ns).filterMap Use.assigned? = ns.flatMap assigned := by
  induction ns with
  | nil => rw [usesAll, List.filterMap_nil, List.flatMap_nil]
  | cons n ns ih => rw [usesAll, List.filterMap_append, ih, List.flatMap_cons, assigned]

theorem assigned_eq_nested {n : Node} (h : n.kind ≠ .assignment) : n.assigned = n.nested := by
  cases n with
  | program body => rw [assigned, uses, assigned_all, nested, children]
  | declaration name value constant =>
    cases value with
    | none => rfl
    | some value => simp [assigned, nested, children, uses, Use.assigned?]
  | assignment target value => exact absurd rfl h
  | binary left right operator => simp [assigned, nested, children, uses]
  | identifier name => rfl
  | number x => rfl
  | property key value =>
    cases value with
    | none => rfl
    | some value => simp [assigned, nested, children, uses]
  | object properties => rw [assigned, uses, assigned_all, nested, children]

end Node

end LetLang
