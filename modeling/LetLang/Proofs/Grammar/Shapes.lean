import LetLang.Proofs.Grammar.Rules
import LetLang.Proofs.Lexing.Lexed

namespace LetLang
open Token

mutual

inductive Term : Node → Prop where
  | identifier (name : String) : Term (.identifier name)
  | number (x : Number) : Term (.number x)
  | assignment {target value : Node} (ht : Term target) (hv : Term value) :
      Term (.assignment target value)
  | binary {left right : Node} {operator : String} (hl : Term left) (hr : Term right)
      (ho : ∃ f, Operator.operation? operator = some f) : Term (.binary left right operator)
  | object {properties : List Node} (h : Entries properties) : Term (.object properties)

inductive Entries : List Node → Prop where
  | nil : Entries []
  | bare {key : String} {rest : List Node} (h : Entries rest) :
      Entries (.property key none :: rest)
  | valued {key : String} {value : Node} {rest : List Node} (hv : Term value) (h : Entries rest) :
      Entries (.property key (some value) :: rest)

end

inductive Command : Node → Prop where
  | bare (name : String) : Command (.declaration name none false)
  | valued {name : String} {value : Node} {constant : Bool} (h : Term value) :
      Command (.declaration name (some value) constant)
  | term {n : Node} (h : Term n) : Command n

namespace Grammar

def Scanned (ts : List Token) : Prop := ∀ t ∈ ts, Lexed t

theorem Scanned.left {ts us : List Token} (h : Scanned (ts ++ us)) : Scanned ts :=
  fun t ht => h t (List.mem_append_left us ht)

theorem Scanned.right {ts us : List Token} (h : Scanned (ts ++ us)) : Scanned us :=
  fun t ht => h t (List.mem_append_right ts ht)

theorem Scanned.head {t : Token} {ts : List Token} (h : Scanned (t :: ts)) : Lexed t :=
  h t List.mem_cons_self

theorem Scanned.tail {t : Token} {ts : List Token} (h : Scanned (t :: ts)) : Scanned ts :=
  fun u hu => h u (List.mem_cons_of_mem t hu)

mutual

theorem Primary.term {ts : List Token} {n : Node} : Primary ts n → Scanned ts → Term n
  | .identifier _, _ => .identifier _
  | .number _ _, _ => .number _
  | .parentheses _ h _, hs => h.term hs.tail.left
  | .object _ h _, hs => .object (h.entries hs.tail.left)

theorem Fields.entries {ts : List Token} {ps : List Node} : Fields ts ps → Scanned ts → Entries ps
  | .none, _ => .nil
  | .all h, hs => h.entries hs
  | .trailing h _, hs => h.entries hs.left

theorem Properties.entries {ts : List Token} {ps : List Node} :
    Properties ts ps → Scanned ts → Entries ps
  | .last h, hs => h.entry hs .nil
  | .more h _ hr, hs => h.entry hs.left (hr.entries hs.right.tail)

theorem Property.entry {ts : List Token} {p : Node} {ps : List Node} :
    Property ts p → Scanned ts → Entries ps → Entries (p :: ps)
  | .bare _, _, hp => .bare hp
  | .valued _ _ h, hs, hp => .valued (h.term hs.tail.tail) hp

theorem Product.term {ts : List Token} {n : Node} : Product ts n → Scanned ts → Term n
  | .primary h, hs => h.term hs
  | .join hl ht hr, hs =>
    .binary (hl.term hs.left) (hr.term hs.right.tail)
      (hs.right.head.operator (.inr (.inr ht)))

theorem Sum.term {ts : List Token} {n : Node} : Sum ts n → Scanned ts → Term n
  | .product h, hs => h.term hs
  | .join hl ht hr, hs =>
    .binary (hl.term hs.left) (hr.term hs.right.tail)
      (hs.right.head.operator (ht.imp_right .inl))

theorem Expression.term {ts : List Token} {n : Node} : Expression ts n → Scanned ts → Term n
  | .sum h, hs => h.term hs
  | .assignment hl _ hr, hs => .assignment (hl.term hs.left) (hr.term hs.right.tail)

end

theorem Declaration.command {ts : List Token} {n : Node} (h : Declaration ts n)
    (hs : Scanned ts) : Command n := by
  cases h with
  | empty _ _ _ => exact .bare _
  | mutable _ _ _ h _ => exact .valued (h.term hs.tail.tail.tail.left)
  | constant _ _ _ h _ => exact .valued (h.term hs.tail.tail.tail.left)

theorem Statement.command {ts : List Token} {n : Node} (h : Statement ts n) (hs : Scanned ts) :
    Command n := by
  cases h with
  | declaration h => exact h.command hs
  | expression h => exact .term (h.term hs)
  | closed h _ => exact .term (h.term hs.left)

theorem Statements.commands {ts : List Token} {ns : List Node} (h : Statements ts ns)
    (hs : Scanned ts) : ∀ n ∈ ns, Command n := by
  induction h with
  | nil => nofun
  | cons h _ ih => exact List.forall_mem_cons.mpr ⟨h.command hs.left, ih hs.right⟩

end Grammar

end LetLang
