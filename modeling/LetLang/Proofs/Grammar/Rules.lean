import LetLang.Tree.Parser

namespace LetLang.Grammar

mutual

inductive Primary : List Token → Node → Prop where
  | identifier {t : Token} (h : t.kind = .identifier) : Primary [t] (.identifier t.text)
  | number {t : Token} {x : Number} (h : t.kind = .number) (hx : Number.ofText? t.text = some x) :
      Primary [t] (.number x)
  | parentheses {o c : Token} {ts : List Token} {n : Node} (ho : o.kind = .openParen)
      (h : Expression ts n) (hc : c.kind = .closeParen) : Primary (o :: (ts ++ [c])) n
  | object {o c : Token} {ts : List Token} {ps : List Node} (ho : o.kind = .openBrace)
      (h : Fields ts ps) (hc : c.kind = .closeBrace) : Primary (o :: (ts ++ [c])) (.object ps)

inductive Fields : List Token → List Node → Prop where
  | none : Fields [] []
  | all {ts : List Token} {ps : List Node} (h : Properties ts ps) : Fields ts ps
  | trailing {c : Token} {ts : List Token} {ps : List Node} (h : Properties ts ps)
      (hc : c.kind = .comma) : Fields (ts ++ [c]) ps

inductive Properties : List Token → List Node → Prop where
  | last {ts : List Token} {p : Node} (h : Property ts p) : Properties ts [p]
  | more {c : Token} {ts us : List Token} {p : Node} {ps : List Node} (h : Property ts p)
      (hc : c.kind = .comma) (hs : Properties us ps) : Properties (ts ++ c :: us) (p :: ps)

inductive Property : List Token → Node → Prop where
  | bare {k : Token} (hk : k.kind = .identifier) : Property [k] (.property k.text none)
  | valued {k c : Token} {ts : List Token} {n : Node} (hk : k.kind = .identifier)
      (hc : c.kind = .colon) (h : Expression ts n) :
      Property (k :: c :: ts) (.property k.text (some n))

inductive Product : List Token → Node → Prop where
  | primary {ts : List Token} {n : Node} (h : Primary ts n) : Product ts n
  | join {t : Token} {ts us : List Token} {l r : Node} (hl : Product ts l)
      (ht : t.kind = .star ∨ t.kind = .slash ∨ t.kind = .percent) (hr : Primary us r) :
      Product (ts ++ t :: us) (.binary l r t.text)

inductive Sum : List Token → Node → Prop where
  | product {ts : List Token} {n : Node} (h : Product ts n) : Sum ts n
  | join {t : Token} {ts us : List Token} {l r : Node} (hl : Sum ts l)
      (ht : t.kind = .plus ∨ t.kind = .minus) (hr : Product us r) :
      Sum (ts ++ t :: us) (.binary l r t.text)

inductive Expression : List Token → Node → Prop where
  | sum {ts : List Token} {n : Node} (h : Sum ts n) : Expression ts n
  | assignment {t : Token} {ts us : List Token} {l r : Node} (hl : Sum ts l)
      (ht : t.kind = .equals) (hr : Expression us r) : Expression (ts ++ t :: us) (.assignment l r)

end

inductive Declaration : List Token → Node → Prop where
  | empty {w i s : Token} (hw : w.kind = .letWord) (hi : i.kind = .identifier)
      (hs : s.kind = .semicolon) : Declaration [w, i, s] (.declaration i.text none false)
  | mutable {w i e s : Token} {ts : List Token} {n : Node} (hw : w.kind = .letWord)
      (hi : i.kind = .identifier) (he : e.kind = .equals) (h : Expression ts n)
      (hs : s.kind = .semicolon) :
      Declaration (w :: i :: e :: (ts ++ [s])) (.declaration i.text (some n) false)
  | constant {w i e s : Token} {ts : List Token} {n : Node} (hw : w.kind = .constWord)
      (hi : i.kind = .identifier) (he : e.kind = .equals) (h : Expression ts n)
      (hs : s.kind = .semicolon) :
      Declaration (w :: i :: e :: (ts ++ [s])) (.declaration i.text (some n) true)

inductive Statement : List Token → Node → Prop where
  | declaration {ts : List Token} {n : Node} (h : Declaration ts n) : Statement ts n
  | expression {ts : List Token} {n : Node} (h : Expression ts n) : Statement ts n
  | closed {s : Token} {ts : List Token} {n : Node} (h : Expression ts n)
      (hs : s.kind = .semicolon) : Statement (ts ++ [s]) n

inductive Statements : List Token → List Node → Prop where
  | nil : Statements [] []
  | cons {ts us : List Token} {n : Node} {ns : List Node} (h : Statement ts n)
      (hs : Statements us ns) : Statements (ts ++ us) (n :: ns)

inductive Program : List Token → Node → Prop where
  | body {ts : List Token} {ns : List Node} (h : Statements ts ns) : Program ts (.program ns)

theorem Fields.cons {c : Token} {ts us : List Token} {p : Node} {ps : List Node}
    (h : Property ts p) (hc : c.kind = .comma) (hs : Fields us ps) :
    Fields (ts ++ c :: us) (p :: ps) := by
  cases hs with
  | none => exact .trailing (.last h) hc
  | all hs => exact .all (.more h hc hs)
  | @trailing d us _ hs hd =>
    rw [← List.cons_append, ← List.append_assoc]
    exact .trailing (.more h hc hs) hd

theorem Statements.append {ts us : List Token} {ns ms : List Node} (h : Statements ts ns)
    (hs : Statements us ms) : Statements (ts ++ us) (ns ++ ms) := by
  induction h with
  | nil => exact hs
  | cons h _ ih =>
    rw [List.append_assoc, List.cons_append]
    exact .cons h ih

def Opening (kind : TokenKind) : Prop :=
  kind = .identifier ∨ kind = .number ∨ kind = .openParen ∨ kind = .openBrace

theorem Primary.head {ts : List Token} {n : Node} (h : Primary ts n) :
    ∃ t us, ts = t :: us ∧ Opening t.kind := by
  cases h with
  | identifier h => exact ⟨_, _, rfl, .inl h⟩
  | number h _ => exact ⟨_, _, rfl, .inr (.inl h)⟩
  | parentheses ho _ _ => exact ⟨_, _, rfl, .inr (.inr (.inl ho))⟩
  | object ho _ _ => exact ⟨_, _, rfl, .inr (.inr (.inr ho))⟩

theorem Product.head {ts : List Token} {n : Node} : Product ts n →
    ∃ t us, ts = t :: us ∧ Opening t.kind
  | .primary h => h.head
  | .join hl _ _ => by
    obtain ⟨t, us, rfl, ht⟩ := hl.head
    exact ⟨t, _, rfl, ht⟩

theorem Sum.head {ts : List Token} {n : Node} : Sum ts n →
    ∃ t us, ts = t :: us ∧ Opening t.kind
  | .product h => h.head
  | .join hl _ _ => by
    obtain ⟨t, us, rfl, ht⟩ := hl.head
    exact ⟨t, _, rfl, ht⟩

theorem Expression.head {ts : List Token} {n : Node} (h : Expression ts n) :
    ∃ t us, ts = t :: us ∧ Opening t.kind := by
  cases h with
  | sum h => exact h.head
  | assignment hl _ _ =>
    obtain ⟨t, us, rfl, ht⟩ := hl.head
    exact ⟨t, _, rfl, ht⟩

theorem Declaration.head {ts : List Token} {n : Node} (h : Declaration ts n) :
    ∃ t us, ts = t :: us ∧ (t.kind = .letWord ∨ t.kind = .constWord) := by
  cases h with
  | empty hw _ _ => exact ⟨_, _, rfl, .inl hw⟩
  | mutable hw _ _ _ _ => exact ⟨_, _, rfl, .inl hw⟩
  | constant hw _ _ _ _ => exact ⟨_, _, rfl, .inr hw⟩

theorem Statement.head {ts : List Token} {n : Node} (h : Statement ts n) :
    ∃ t us, ts = t :: us ∧ (t.kind = .letWord ∨ t.kind = .constWord ∨ Opening t.kind) := by
  cases h with
  | declaration h =>
    obtain ⟨t, us, rfl, ht⟩ := h.head
    exact ⟨t, us, rfl, ht.imp_right .inl⟩
  | expression h =>
    obtain ⟨t, us, rfl, ht⟩ := h.head
    exact ⟨t, us, rfl, .inr (.inr ht)⟩
  | closed h _ =>
    obtain ⟨t, us, rfl, ht⟩ := h.head
    exact ⟨t, _, rfl, .inr (.inr ht)⟩

theorem Property.head {ts : List Token} {p : Node} (h : Property ts p) :
    ∃ t us, ts = t :: us ∧ t.kind = .identifier := by
  cases h with
  | bare hk => exact ⟨_, _, rfl, hk⟩
  | valued hk _ _ => exact ⟨_, _, rfl, hk⟩

def Inner (ts : List Token) : Prop := ∀ t ∈ ts, t.kind ≠ .endOfInput

theorem Inner.append {ts us : List Token} (h : Inner ts) (h' : Inner us) : Inner (ts ++ us) :=
  fun t ht => (List.mem_append.mp ht).elim (h t) (h' t)

theorem Inner.cons {t : Token} {ts : List Token} {kind : TokenKind} (ht : t.kind = kind)
    (hk : kind ≠ .endOfInput) (h : Inner ts) : Inner (t :: ts) :=
  List.forall_mem_cons.mpr ⟨ht ▸ hk, h⟩

theorem Inner.nil : Inner [] := nofun

mutual

theorem Primary.inner {ts : List Token} {n : Node} : Primary ts n → Inner ts
  | .identifier h => .cons h nofun .nil
  | .number h _ => .cons h nofun .nil
  | .parentheses ho h hc => .cons ho nofun (h.inner.append (.cons hc nofun .nil))
  | .object ho h hc => .cons ho nofun (h.inner.append (.cons hc nofun .nil))

theorem Fields.inner {ts : List Token} {ps : List Node} : Fields ts ps → Inner ts
  | .none => .nil
  | .all h => h.inner
  | .trailing h hc => h.inner.append (.cons hc nofun .nil)

theorem Properties.inner {ts : List Token} {ps : List Node} : Properties ts ps → Inner ts
  | .last h => h.inner
  | .more h hc hs => h.inner.append (.cons hc nofun hs.inner)

theorem Property.inner {ts : List Token} {p : Node} : Property ts p → Inner ts
  | .bare hk => .cons hk nofun .nil
  | .valued hk hc h => .cons hk nofun (.cons hc nofun h.inner)

theorem Product.inner {ts : List Token} {n : Node} : Product ts n → Inner ts
  | .primary h => h.inner
  | .join hl ht hr => hl.inner.append (by
      rcases ht with ht | ht | ht <;> exact .cons ht nofun hr.inner)

theorem Sum.inner {ts : List Token} {n : Node} : Sum ts n → Inner ts
  | .product h => h.inner
  | .join hl ht hr => hl.inner.append (by
      rcases ht with ht | ht <;> exact .cons ht nofun hr.inner)

theorem Expression.inner {ts : List Token} {n : Node} : Expression ts n → Inner ts
  | .sum h => h.inner
  | .assignment hl ht hr => hl.inner.append (.cons ht nofun hr.inner)

end

theorem Declaration.inner {ts : List Token} {n : Node} (h : Declaration ts n) : Inner ts := by
  cases h with
  | empty hw hi hs => exact .cons hw nofun (.cons hi nofun (.cons hs nofun .nil))
  | mutable hw hi he h hs =>
    exact .cons hw nofun (.cons hi nofun (.cons he nofun (h.inner.append (.cons hs nofun .nil))))
  | constant hw hi he h hs =>
    exact .cons hw nofun (.cons hi nofun (.cons he nofun (h.inner.append (.cons hs nofun .nil))))

theorem Statement.inner {ts : List Token} {n : Node} (h : Statement ts n) : Inner ts := by
  cases h with
  | declaration h => exact h.inner
  | expression h => exact h.inner
  | closed h hs => exact h.inner.append (.cons hs nofun .nil)

theorem Statements.inner {ts : List Token} {ns : List Node} (h : Statements ts ns) : Inner ts := by
  induction h with
  | nil => exact .nil
  | cons h _ ih => exact h.inner.append ih

end LetLang.Grammar
