import LetLang.Proofs.Grammar.Acceptance
import LetLang.Proofs.Lexing.Spacing

namespace LetLang

def Node.rank : Node → Nat
  | .assignment _ _ => 0
  | .binary _ _ operator => if operator = "+" ∨ operator = "-" then 1 else 2
  | _ => 3

namespace Token.Word

def additive : List Word := [⟨.plus, "+"⟩, ⟨.minus, "-"⟩]

def multiplicative : List Word := [⟨.star, "*"⟩, ⟨.slash, "/"⟩, ⟨.percent, "%"⟩]

def declaring (constant : Bool) : Word :=
  if constant then ⟨.constWord, "const"⟩ else ⟨.letWord, "let"⟩

theorem of_additive {w : Word} (hw : w ∈ additive) : w = ⟨.plus, "+"⟩ ∨ w = ⟨.minus, "-"⟩ := by
  simpa [additive] using hw

theorem of_multiplicative {w : Word} (hw : w ∈ multiplicative) :
    w = ⟨.star, "*"⟩ ∨ w = ⟨.slash, "/"⟩ ∨ w = ⟨.percent, "%"⟩ := by
  simpa [multiplicative] using hw

end Token.Word

namespace Grammar
open Token

mutual

inductive Writable : Node → Prop where
  | identifier {name : String} (h : Spells name.toList .identifier) : Writable (.identifier name)
  | number {t : String} {x : Number} (h : Spells t.toList .number)
      (hx : Number.ofText? t = some x) : Writable (.number x)
  | assignment {target value : Node} (ht : Writable target) (hv : Writable value) :
      Writable (.assignment target value)
  | binary {left right : Node} {operator : String} (hl : Writable left) (hr : Writable right)
      (ho : operator ∈ ["+", "-", "*", "/", "%"]) : Writable (.binary left right operator)
  | object {properties : List Node} (h : WritableFields properties) :
      Writable (.object properties)

inductive WritableFields : List Node → Prop where
  | nil : WritableFields []
  | bare {key : String} {rest : List Node} (hk : Spells key.toList .identifier)
      (h : WritableFields rest) : WritableFields (.property key none :: rest)
  | valued {key : String} {value : Node} {rest : List Node} (hk : Spells key.toList .identifier)
      (hv : Writable value) (h : WritableFields rest) :
      WritableFields (.property key (some value) :: rest)

end

theorem WritableFields.tail {p : Node} {ps : List Node} : WritableFields (p :: ps) →
    WritableFields ps
  | .bare _ h => h
  | .valued _ _ h => h

inductive WritableStatement : Node → Prop where
  | empty {name : String} (hi : Spells name.toList .identifier) :
      WritableStatement (.declaration name none false)
  | declaration {name : String} {value : Node} {constant : Bool}
      (hi : Spells name.toList .identifier) (h : Writable value) :
      WritableStatement (.declaration name (some value) constant)
  | expression {n : Node} (h : Writable n) : WritableStatement n

mutual

inductive Prints (spare : Bool) : Nat → List Word → Node → Prop where
  | parentheses {demand : Nat} {ws : List Word} {n : Node} (hn : spare ∨ n.rank < demand)
      (h : Prints spare 0 ws n) :
      Prints spare demand (⟨.openParen, "("⟩ :: (ws ++ [⟨.closeParen, ")"⟩])) n
  | identifier (demand : Nat) (name : String) :
      Prints spare demand [⟨.identifier, name⟩] (.identifier name)
  | number (demand : Nat) {t : String} {x : Number} (h : Spells t.toList .number)
      (hx : Number.ofText? t = some x) : Prints spare demand [⟨.number, t⟩] (.number x)
  | assignment {ls rs : List Word} {l r : Node} (hl : Prints spare 1 ls l)
      (hr : Prints spare 0 rs r) : Prints spare 0 (ls ++ ⟨.equals, "="⟩ :: rs) (.assignment l r)
  | sum {demand : Nat} {w : Word} {ls rs : List Word} {l r : Node} (hd : demand ≤ 1)
      (hl : Prints spare 1 ls l) (hw : w ∈ Word.additive) (hr : Prints spare 2 rs r) :
      Prints spare demand (ls ++ w :: rs) (.binary l r w.text)
  | product {demand : Nat} {w : Word} {ls rs : List Word} {l r : Node} (hd : demand ≤ 2)
      (hl : Prints spare 2 ls l) (hw : w ∈ Word.multiplicative) (hr : Prints spare 3 rs r) :
      Prints spare demand (ls ++ w :: rs) (.binary l r w.text)
  | object (demand : Nat) {ws : List Word} {ps : List Node} (h : PrintsFields spare ws ps) :
      Prints spare demand (⟨.openBrace, "\x7b"⟩ :: (ws ++ [⟨.closeBrace, "\x7d"⟩])) (.object ps)

inductive PrintsFields (spare : Bool) : List Word → List Node → Prop where
  | none : PrintsFields spare [] []
  | last {ws : List Word} {p : Node} (h : PrintsField spare ws p) : PrintsFields spare ws [p]
  | more {ws us : List Word} {p q : Node} {ps : List Node} (h : PrintsField spare ws p)
      (hs : PrintsFields spare us (q :: ps)) :
      PrintsFields spare (ws ++ ⟨.comma, ","⟩ :: us) (p :: q :: ps)

inductive PrintsField (spare : Bool) : List Word → Node → Prop where
  | bare (key : String) : PrintsField spare [⟨.identifier, key⟩] (.property key none)
  | valued (key : String) {ws : List Word} {n : Node} (h : Prints spare 0 ws n) :
      PrintsField spare (⟨.identifier, key⟩ :: ⟨.colon, ":"⟩ :: ws) (.property key (some n))

end

inductive PrintsStatement (spare : Bool) : List Word → Node → Prop where
  | empty (name : String) :
      PrintsStatement spare [Word.declaring false, ⟨.identifier, name⟩, ⟨.semicolon, ";"⟩]
        (.declaration name none false)
  | declaration (name : String) (constant : Bool) {ws : List Word} {n : Node}
      (h : Prints spare 0 ws n) :
      PrintsStatement spare
        (Word.declaring constant :: ⟨.identifier, name⟩ :: ⟨.equals, "="⟩ ::
          (ws ++ [⟨.semicolon, ";"⟩])) (.declaration name (some n) constant)
  | expression {ws : List Word} {n : Node} (h : Prints spare 0 ws n) : PrintsStatement spare ws n

inductive PrintsStatements (spare : Bool) : List Word → List Node → Prop where
  | nil : PrintsStatements spare [] []
  | cons {ws us : List Word} {n : Node} {ns : List Node} (h : PrintsStatement spare ws n)
      (hs : PrintsStatements spare us ns) : PrintsStatements spare (ws ++ us) (n :: ns)

theorem exists_prints {n : Node} {ws : List Word}
    (h : ∀ demand ≤ n.rank, Prints false demand ws n) (demand : Nat) :
    ∃ us, Prints false demand us n := by
  rcases Nat.lt_or_ge n.rank demand with lower | enough
  · exact ⟨_, .parentheses (.inr lower) (h 0 (Nat.zero_le _))⟩
  · exact ⟨ws, h demand enough⟩

theorem operator_cases {operator : String} (h : operator ∈ ["+", "-", "*", "/", "%"]) :
    (∃ w ∈ Word.additive, w.text = operator) ∨ ∃ w ∈ Word.multiplicative, w.text = operator := by
  simp only [List.mem_cons, List.not_mem_nil, or_false] at h
  rcases h with rfl | rfl | rfl | rfl | rfl
  · exact .inl ⟨⟨.plus, "+"⟩, by decide, rfl⟩
  · exact .inl ⟨⟨.minus, "-"⟩, by decide, rfl⟩
  · exact .inr ⟨⟨.star, "*"⟩, by decide, rfl⟩
  · exact .inr ⟨⟨.slash, "/"⟩, by decide, rfl⟩
  · exact .inr ⟨⟨.percent, "%"⟩, by decide, rfl⟩

theorem rank_additive {w : Word} (hw : w ∈ Word.additive) (l r : Node) :
    (Node.binary l r w.text).rank = 1 := by
  rcases Word.of_additive hw with rfl | rfl
  · rfl
  · rfl

theorem rank_multiplicative {w : Word} (hw : w ∈ Word.multiplicative) (l r : Node) :
    (Node.binary l r w.text).rank = 2 := by
  rcases Word.of_multiplicative hw with rfl | rfl | rfl
  · rfl
  · rfl
  · rfl

theorem PrintsFields.cons {ws us : List Word} {p : Node} {ps : List Node}
    (hs : PrintsFields false us ps) (h : PrintsField false ws p) :
    ∃ vs, PrintsFields false vs (p :: ps) := by
  cases ps with
  | nil => exact ⟨ws, .last h⟩
  | cons q ps => exact ⟨_, .more h hs⟩

mutual

theorem Writable.prints {n : Node} : Writable n →
    ∃ ws, ∀ demand ≤ n.rank, Prints false demand ws n
  | .identifier _ => ⟨_, fun demand _ => .identifier demand _⟩
  | .number h hx => ⟨_, fun demand _ => .number demand h hx⟩
  | .assignment ht hv => by
    obtain ⟨_, atRank⟩ := ht.prints
    obtain ⟨ls, hl⟩ := exists_prints atRank 1
    obtain ⟨_, atRank⟩ := hv.prints
    obtain ⟨rs, hr⟩ := exists_prints atRank 0
    refine ⟨ls ++ ⟨.equals, "="⟩ :: rs, fun demand hd => ?_⟩
    obtain rfl := Nat.le_zero.mp hd
    exact .assignment hl hr
  | .binary hl hr ho => by
    obtain ⟨_, leftAt⟩ := hl.prints
    obtain ⟨_, rightAt⟩ := hr.prints
    rcases operator_cases ho with ⟨w, hw, rfl⟩ | ⟨w, hw, rfl⟩
    · obtain ⟨ls, hl⟩ := exists_prints leftAt 1
      obtain ⟨rs, hr⟩ := exists_prints rightAt 2
      rw [rank_additive hw]
      exact ⟨_, fun demand hd => .sum hd hl hw hr⟩
    · obtain ⟨ls, hl⟩ := exists_prints leftAt 2
      obtain ⟨rs, hr⟩ := exists_prints rightAt 3
      rw [rank_multiplicative hw]
      exact ⟨_, fun demand hd => .product hd hl hw hr⟩
  | .object h => by
    obtain ⟨ws, hp⟩ := h.prints
    exact ⟨_, fun demand _ => .object demand hp⟩

theorem WritableFields.prints {ps : List Node} : WritableFields ps →
    ∃ ws, PrintsFields false ws ps
  | .nil => ⟨[], .none⟩
  | .bare _ h => by
    obtain ⟨us, hs⟩ := h.prints
    exact hs.cons (.bare _)
  | .valued _ hv h => by
    obtain ⟨_, atRank⟩ := hv.prints
    obtain ⟨ws, hp⟩ := exists_prints atRank 0
    obtain ⟨us, hs⟩ := h.prints
    exact hs.cons (.valued _ hp)

end

theorem WritableStatement.prints {n : Node} (h : WritableStatement n) :
    ∃ ws, PrintsStatement false ws n := by
  cases h with
  | empty _ => exact ⟨_, .empty _⟩
  | declaration _ h =>
    obtain ⟨_, atRank⟩ := h.prints
    exact ⟨_, .declaration _ _ (atRank 0 (Nat.zero_le _))⟩
  | expression h =>
    obtain ⟨ws, atRank⟩ := h.prints
    exact ⟨ws, .expression (atRank 0 (Nat.zero_le _))⟩

theorem exists_printsStatements {body : List Node} (h : ∀ n ∈ body, WritableStatement n) :
    ∃ ws, PrintsStatements false ws body := by
  induction body with
  | nil => exact ⟨[], .nil⟩
  | cons n ns ih =>
    obtain ⟨hn, hns⟩ := List.forall_mem_cons.mp h
    obtain ⟨ws, first⟩ := hn.prints
    obtain ⟨us, others⟩ := ih hns
    exact ⟨ws ++ us, .cons first others⟩

def Legible (ws : List Word) : Prop := ∀ w ∈ ws, w.Spelled

theorem Legible.cons {w : Word} {ws : List Word} (hw : w.Spelled) (h : Legible ws) :
    Legible (w :: ws) :=
  List.forall_mem_cons.mpr ⟨hw, h⟩

theorem Legible.append {ws us : List Word} (h : Legible ws) (h' : Legible us) :
    Legible (ws ++ us) :=
  List.forall_mem_append.mpr ⟨h, h'⟩

theorem Legible.nil : Legible [] := nofun

theorem Legible.concat {w : Word} {ws : List Word} (h : Legible ws) (hw : w.Spelled) :
    Legible (ws ++ [w]) :=
  h.append (.cons hw .nil)

theorem spelled_symbol {c : Char} {text : String} {kind : TokenKind} (ht : text.toList = [c])
    (h : symbol? c = some kind) : Word.Spelled ⟨kind, text⟩ := by
  rw [Word.Spelled, ht]
  exact .symbol h

theorem spelled_additive {w : Word} (hw : w ∈ Word.additive) : w.Spelled := by
  rcases Word.of_additive hw with rfl | rfl
  · exact spelled_symbol rfl rfl
  · exact spelled_symbol rfl rfl

theorem spelled_multiplicative {w : Word} (hw : w ∈ Word.multiplicative) : w.Spelled := by
  rcases Word.of_multiplicative hw with rfl | rfl | rfl
  · exact spelled_symbol rfl rfl
  · exact spelled_symbol rfl rfl
  · exact spelled_symbol rfl rfl

theorem spelled_declaring (constant : Bool) : (Word.declaring constant).Spelled := by
  cases constant
  · exact .letWord
  · exact .constWord

variable {spare : Bool}

mutual

theorem Prints.legible {demand : Nat} {ws : List Word} {n : Node} :
    Prints spare demand ws n → Writable n → Legible ws
  | .parentheses _ h, hn =>
    .cons (spelled_symbol rfl rfl) ((h.legible hn).concat (spelled_symbol rfl rfl))
  | .identifier _ _, .identifier h => .cons h .nil
  | .number _ h _, _ => .cons h .nil
  | .assignment hl hr, .assignment ht hv =>
    (hl.legible ht).append (.cons (spelled_symbol rfl rfl) (hr.legible hv))
  | .sum _ hl hw hr, .binary hnl hnr _ =>
    (hl.legible hnl).append (.cons (spelled_additive hw) (hr.legible hnr))
  | .product _ hl hw hr, .binary hnl hnr _ =>
    (hl.legible hnl).append (.cons (spelled_multiplicative hw) (hr.legible hnr))
  | .object _ h, .object hn =>
    .cons (spelled_symbol rfl rfl) ((h.legible hn).concat (spelled_symbol rfl rfl))

theorem PrintsFields.legible {ws : List Word} {ps : List Node} :
    PrintsFields spare ws ps → WritableFields ps → Legible ws
  | .none, _ => .nil
  | .last h, hn => h.legible hn
  | .more h hs, hn =>
    (h.legible hn).append (.cons (spelled_symbol rfl rfl) (hs.legible hn.tail))

theorem PrintsField.legible {ws : List Word} {p : Node} {ps : List Node} :
    PrintsField spare ws p → WritableFields (p :: ps) → Legible ws
  | .bare _, .bare hk _ => .cons hk .nil
  | .valued _ h, .valued hk hv _ => .cons hk (.cons (spelled_symbol rfl rfl) (h.legible hv))

end

theorem Prints.kind_ne {demand : Nat} {ws : List Word} {n : Node} :
    Prints spare demand ws n → n.kind ≠ .declaration
  | .parentheses _ h => h.kind_ne
  | .identifier _ _ | .number _ _ _ | .assignment _ _ | .sum _ _ _ _ | .product _ _ _ _
  | .object _ _ => nofun

theorem PrintsStatement.legible {ws : List Word} {n : Node} (h : PrintsStatement spare ws n)
    (hn : WritableStatement n) : Legible ws := by
  cases h with
  | empty name =>
    cases hn with
    | empty hi =>
      exact .cons (spelled_declaring false) (.cons hi (.cons (spelled_symbol rfl rfl) .nil))
    | expression h => cases h
  | declaration name constant h =>
    cases hn with
    | declaration hi hv =>
      exact .cons (spelled_declaring constant) (.cons hi (.cons (spelled_symbol rfl rfl)
        ((h.legible hv).concat (spelled_symbol rfl rfl))))
    | expression h => cases h
  | expression h =>
    cases hn with
    | empty _ => exact absurd rfl h.kind_ne
    | declaration _ _ => exact absurd rfl h.kind_ne
    | expression hn => exact h.legible hn

theorem PrintsStatements.legible {ws : List Word} {body : List Node}
    (h : PrintsStatements spare ws body) (hb : ∀ n ∈ body, WritableStatement n) : Legible ws := by
  induction h with
  | nil => exact .nil
  | cons h _ ih =>
    obtain ⟨hn, hns⟩ := List.forall_mem_cons.mp hb
    exact (h.legible hn).append (ih hns)

def Derives : Nat → List Token → Node → Prop
  | 0 => Expression
  | 1 => Sum
  | 2 => Product
  | _ => Primary

section Derives

variable {ts : List Token} {n : Node}

theorem derives_of_sum (h : Sum ts n) {demand : Nat} (hd : demand ≤ 1) : Derives demand ts n := by
  match demand with
  | 0 => exact .sum h
  | 1 => exact h

theorem derives_of_product (h : Product ts n) {demand : Nat} (hd : demand ≤ 2) :
    Derives demand ts n := by
  match demand with
  | 0 | 1 => exact derives_of_sum (.product h) (by omega)
  | 2 => exact h

theorem derives_of_primary (h : Primary ts n) (demand : Nat) : Derives demand ts n := by
  match demand with
  | 0 | 1 | 2 => exact derives_of_product (.primary h) (by omega)
  | _ + 3 => exact h

end Derives

theorem kind_additive {w : Word} (hw : w ∈ Word.additive) : w.kind = .plus ∨ w.kind = .minus :=
  (Word.of_additive hw).imp (congrArg Word.kind) (congrArg Word.kind)

theorem kind_multiplicative {w : Word} (hw : w ∈ Word.multiplicative) :
    w.kind = .star ∨ w.kind = .slash ∨ w.kind = .percent :=
  (Word.of_multiplicative hw).imp (congrArg Word.kind)
    (.imp (congrArg Word.kind) (congrArg Word.kind))

theorem says_cons {ts : List Token} {w : Word} {ws : List Word} (h : ts.map toWord = w :: ws) :
    ∃ t us, ts = t :: us ∧ t.kind = w.kind ∧ t.text = w.text ∧ us.map toWord = ws := by
  obtain ⟨t, us, rfl, rfl, hus⟩ := List.map_eq_cons_iff.mp h
  exact ⟨t, us, rfl, rfl, rfl, hus⟩

theorem says_concat {ts : List Token} {w : Word} {ws : List Word} (h : ts.map toWord = ws ++ [w]) :
    ∃ us t, ts = us ++ [t] ∧ us.map toWord = ws ∧ t.kind = w.kind := by
  obtain ⟨us, vs, rfl, hus, hvs⟩ := List.map_eq_append_iff.mp h
  obtain ⟨t, rfl, rfl⟩ := List.map_eq_singleton_iff.mp hvs
  exact ⟨us, t, rfl, hus, rfl⟩

theorem says_infix {ts : List Token} {w : Word} {ws vs : List Word}
    (h : ts.map toWord = ws ++ w :: vs) :
    ∃ us t xs, ts = us ++ t :: xs ∧ us.map toWord = ws ∧ t.kind = w.kind ∧ t.text = w.text ∧
      xs.map toWord = vs := by
  obtain ⟨us, ys, rfl, hus, hys⟩ := List.map_eq_append_iff.mp h
  obtain ⟨t, xs, rfl, kind, text, hxs⟩ := says_cons hys
  exact ⟨us, t, xs, rfl, hus, kind, text, hxs⟩

mutual

theorem Prints.derives {demand : Nat} {ws : List Word} {n : Node} {ts : List Token} :
    Prints spare demand ws n → ts.map toWord = ws → Derives demand ts n
  | .parentheses _ h, hts => by
    obtain ⟨o, us, rfl, ho, _, hus⟩ := says_cons hts
    obtain ⟨vs, c, rfl, hvs, hc⟩ := says_concat hus
    exact derives_of_primary (.parentheses ho (h.derives hvs) hc) _
  | .identifier _ _, hts => by
    obtain ⟨t, us, rfl, kind, rfl, hus⟩ := says_cons hts
    obtain rfl := List.map_eq_nil_iff.mp hus
    exact derives_of_primary (.identifier kind) _
  | .number _ _ hx, hts => by
    obtain ⟨t, us, rfl, kind, rfl, hus⟩ := says_cons hts
    obtain rfl := List.map_eq_nil_iff.mp hus
    exact derives_of_primary (.number kind hx) _
  | .assignment hl hr, hts => by
    obtain ⟨us, t, xs, rfl, hus, kind, _, hxs⟩ := says_infix hts
    exact .assignment (hl.derives hus) kind (hr.derives hxs)
  | .sum hd hl hw hr, hts => by
    obtain ⟨us, t, xs, rfl, hus, kind, text, hxs⟩ := says_infix hts
    rw [← text]
    exact derives_of_sum (.join (hl.derives hus) (kind ▸ kind_additive hw) (hr.derives hxs)) hd
  | .product hd hl hw hr, hts => by
    obtain ⟨us, t, xs, rfl, hus, kind, text, hxs⟩ := says_infix hts
    rw [← text]
    exact derives_of_product
      (.join (hl.derives hus) (kind ▸ kind_multiplicative hw) (hr.derives hxs)) hd
  | .object _ h, hts => by
    obtain ⟨o, us, rfl, ho, _, hus⟩ := says_cons hts
    obtain ⟨vs, c, rfl, hvs, hc⟩ := says_concat hus
    exact derives_of_primary (.object ho (h.derives hvs) hc) _

theorem PrintsFields.derives {ws : List Word} {ps : List Node} {ts : List Token} :
    PrintsFields spare ws ps → ts.map toWord = ws → Fields ts ps
  | .none, hts => by
    obtain rfl := List.map_eq_nil_iff.mp hts
    exact .none
  | .last h, hts => .all (.last (h.derives hts))
  | .more h hs, hts => by
    obtain ⟨us, t, xs, rfl, hus, kind, _, hxs⟩ := says_infix hts
    exact .cons (h.derives hus) kind (hs.derives hxs)

theorem PrintsField.derives {ws : List Word} {p : Node} {ts : List Token} :
    PrintsField spare ws p → ts.map toWord = ws → Property ts p
  | .bare _, hts => by
    obtain ⟨t, us, rfl, kind, rfl, hus⟩ := says_cons hts
    obtain rfl := List.map_eq_nil_iff.mp hus
    exact .bare kind
  | .valued _ h, hts => by
    obtain ⟨k, us, rfl, hk, rfl, hus⟩ := says_cons hts
    obtain ⟨c, vs, rfl, hc, _, hvs⟩ := says_cons hus
    exact .valued hk hc (h.derives hvs)

end

theorem PrintsStatement.derives {ws : List Word} {n : Node} {ts : List Token}
    (h : PrintsStatement spare ws n) (hts : ts.map toWord = ws) : Statement ts n := by
  cases h with
  | empty name =>
    obtain ⟨w, us, rfl, hw, _, hus⟩ := says_cons hts
    obtain ⟨i, vs, rfl, hi, rfl, hvs⟩ := says_cons hus
    obtain ⟨s, xs, rfl, hs, _, hxs⟩ := says_cons hvs
    obtain rfl := List.map_eq_nil_iff.mp hxs
    exact .declaration (.empty hw hi hs)
  | declaration name constant h =>
    obtain ⟨w, us, rfl, hw, _, hus⟩ := says_cons hts
    obtain ⟨i, vs, rfl, hi, rfl, hvs⟩ := says_cons hus
    obtain ⟨e, xs, rfl, he, _, hxs⟩ := says_cons hvs
    obtain ⟨ys, s, rfl, hys, hs⟩ := says_concat hxs
    cases constant with
    | false => exact .declaration (.mutable hw hi he (h.derives hys) hs)
    | true => exact .declaration (.constant hw hi he (h.derives hys) hs)
  | expression h => exact .expression (h.derives hts)

theorem PrintsStatements.derives {ws : List Word} {body : List Node} {ts : List Token}
    (h : PrintsStatements spare ws body) (hts : ts.map toWord = ws) : Statements ts body := by
  induction h generalizing ts with
  | nil =>
    obtain rfl := List.map_eq_nil_iff.mp hts
    exact .nil
  | cons h _ ih =>
    obtain ⟨us, vs, rfl, hus, hvs⟩ := List.map_eq_append_iff.mp hts
    exact .cons (h.derives hus) (ih hvs)

theorem program_prints {body : List Node} (h : ∀ n ∈ body, WritableStatement n) :
    (∃ ws, PrintsStatements false ws body) ∧
    ∀ spare ws, PrintsStatements spare ws body →
      ∃ tokens, scan (Word.join ws) = .ok tokens ∧
        Parser.program tokens = .ok (.program body) := by
  refine ⟨exists_printsStatements h, fun spare ws printed => ?_⟩
  obtain ⟨ts, q, scans, said⟩ := (spaced_join (printed.legible h)).scans Position.start
  refine ⟨_, scans.scanFrom_eq, program_eq_ok_iff.mpr ⟨body, ?_, rfl⟩⟩
  rw [body_eq scans.inner rfl (terminated_concat ts rfl)]
  exact (statements_reading_iff _).mpr (printed.derives said)

def difference : Node :=
  .binary (.identifier "a") (.binary (.identifier "b") (.identifier "c") "-") "-"

def differenceWords : List Word :=
  [⟨.identifier, "a"⟩, ⟨.minus, "-"⟩, ⟨.openParen, "("⟩, ⟨.identifier, "b"⟩, ⟨.minus, "-"⟩,
    ⟨.identifier, "c"⟩, ⟨.closeParen, ")"⟩]

theorem difference_prints :
    (∀ n ∈ [difference], WritableStatement n) ∧ PrintsStatements false differenceWords [difference] ∧
    Word.join differenceWords = "a - ( b - c )" ∧
    ∃ tokens, scan "a - ( b - c )" = .ok tokens ∧
      Parser.program tokens = .ok (.program [difference]) := by
  have letter : ∀ c ∈ ['a', 'b', 'c'], Spells [c] .identifier := by
    intro c hc
    have start : isIdentifierStart c := List.all_eq_true.mp rfl c hc
    refine .identifier start nofun ?_ ?_ <;> simp
  have inner : Writable (.binary (.identifier "b") (.identifier "c") "-") :=
    .binary (.identifier (letter 'b' (by decide))) (.identifier (letter 'c' (by decide)))
      (by decide)
  have written : ∀ n ∈ [difference], WritableStatement n := by
    refine List.forall_mem_singleton.mpr (.expression ?_)
    exact .binary (.identifier (letter 'a' (by decide))) inner (by decide)
  have minus : (⟨.minus, "-"⟩ : Word) ∈ Word.additive := by decide
  have right : Prints false 2 _ (.binary (.identifier "b") (.identifier "c") "-") :=
    .parentheses (.inr (by decide))
      (.sum (by decide) (.identifier 1 "b") minus (.identifier 2 "c"))
  have printed : PrintsStatements false differenceWords [difference] :=
    .cons (.expression (.sum (by decide) (.identifier 1 "a") minus right)) .nil
  exact ⟨written, printed, by decide, (program_prints written).2 false _ printed⟩

end Grammar

end LetLang
