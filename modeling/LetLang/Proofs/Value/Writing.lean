import LetLang.Proofs.Grammar.Printing
import LetLang.Proofs.Number.Rereading

namespace LetLang
open Token Grammar

namespace Value

mutual

inductive Plain : Value → Prop where
  | null : Plain .null
  | boolean (b : Bool) : Plain (.boolean b)
  | number {x : Number} (h : x.Plain) : Plain (.number x)
  | object {fields : List (String × Value)} (h : PlainFields fields)
      (hd : (fields.map Prod.fst).Nodup) : Plain (.object fields)

inductive PlainFields : List (String × Value) → Prop where
  | nil : PlainFields []
  | cons {k : String} {v : Value} {rest : List (String × Value)}
      (hk : Spells k.toList .identifier) (hv : Plain v) (h : PlainFields rest) :
      PlainFields ((k, v) :: rest)

end

mutual

def tree : Value → Node
  | null => .identifier "null"
  | boolean b => .identifier (if b then "true" else "false")
  | number x => .number ((Number.ofText? x.plainText).getD x)
  | object fields => .object (fieldTrees fields)

def fieldTrees : List (String × Value) → List Node
  | [] => []
  | (k, v) :: rest => .property k (some v.tree) :: fieldTrees rest

end

mutual

def words : Value → List Word
  | null => [⟨.identifier, "null"⟩]
  | boolean b => [⟨.identifier, if b then "true" else "false"⟩]
  | number x => [⟨.number, x.plainText⟩]
  | object [] => [⟨.openBrace, "\x7b"⟩, ⟨.closeBrace, "\x7d"⟩]
  | object ((k, v) :: rest) =>
    ⟨.openBrace, "\x7b"⟩ :: (⟨.identifier, k⟩ :: ⟨.colon, ":"⟩ :: (v.words ++ fieldsWords rest) ++
      [⟨.closeBrace, "\x7d"⟩])

def fieldsWords : List (String × Value) → List Word
  | [] => []
  | (k, v) :: rest =>
    ⟨.comma, ","⟩ :: ⟨.identifier, k⟩ :: ⟨.colon, ":"⟩ :: (v.words ++ fieldsWords rest)

end

theorem spells_builtin : ∀ name ∈ ["null", "true", "false"], Spells name.toList .identifier := by
  intro name hn
  simp only [List.mem_cons, List.not_mem_nil, or_false] at hn
  rcases hn with rfl | rfl | rfl <;>
    exact .identifier (by decide) (List.all_eq_true.mp rfl) (by decide) (by decide)

structure Behind (rest : List Char) (ws : List Word) : Prop where
  detached : ∀ kind, Detached kind rest
  spaced : Spaced rest ws

section Spacing

variable {rest : List Char} {ws : List Word}

theorem spaced_symbol {c : Char} {text : String} {kind : TokenKind} (ht : text.toList = [c])
    (hc : symbol? c = some kind) (h : Spaced rest ws) : Spaced (c :: rest) (⟨kind, text⟩ :: ws) := by
  have word := spaced_spelled (spelled_symbol ht hc) (detached_symbol hc rest) h
  rwa [ht] at word

theorem spaced_open (h : Spaced rest ws) :
    Spaced ('\x7b' :: rest) (⟨.openBrace, "\x7b"⟩ :: ws) :=
  spaced_symbol rfl rfl h

theorem spaced_close (h : Spaced rest ws) :
    Spaced ('\x7d' :: rest) (⟨.closeBrace, "\x7d"⟩ :: ws) :=
  spaced_symbol rfl rfl h

theorem behind_nil : Behind [] [] := ⟨detached_nil, .nil⟩

theorem behind_blank (h : Spaced rest ws) : Behind (' ' :: rest) ws :=
  ⟨fun kind => detached_cons kind (breaks_of_space rfl) rest, .space rfl h⟩

theorem behind_comma (h : Spaced rest ws) : Behind (',' :: ' ' :: rest) (⟨.comma, ","⟩ :: ws) :=
  ⟨fun kind => detached_cons kind (breaks_of_symbol rfl) _, spaced_symbol rfl rfl (.space rfl h)⟩

theorem spaced_key {k : String} (hk : Spells k.toList .identifier) (h : Spaced rest ws) :
    Spaced (k.toList ++ ':' :: ' ' :: rest) (⟨.identifier, k⟩ :: ⟨.colon, ":"⟩ :: ws) :=
  spaced_spelled hk (detached_cons _ (breaks_of_symbol rfl) _) (spaced_symbol rfl rfl (.space rfl h))

end Spacing

theorem object_toList (k : String) (v : Value) (fields : List (String × Value)) :
    (text (.object ((k, v) :: fields))).toList =
      '\x7b' :: ' ' :: (k.toList ++ ':' :: ' ' :: (v.text.toList ++
        ((fieldsText fields).toList ++ [' ', '\x7d']))) := by
  simp [text]

theorem fieldsText_toList (k : String) (v : Value) (fields : List (String × Value)) :
    (fieldsText ((k, v) :: fields)).toList =
      ',' :: ' ' :: (k.toList ++ ':' :: ' ' :: (v.text.toList ++ (fieldsText fields).toList)) := by
  simp [fieldsText]

mutual

theorem Plain.spaced {v : Value} {rest : List Char} {ws : List Word} :
    Plain v → Behind rest ws → Spaced (v.text.toList ++ rest) (v.words ++ ws)
  | .null, h => by
    rw [text, words]
    exact spaced_spelled (spells_builtin _ (by decide)) (h.detached _) h.spaced
  | .boolean b, h => by
    rw [text, words]
    exact spaced_spelled (spells_builtin _ (by cases b <;> decide)) (h.detached _) h.spaced
  | .number hx, h => by
    rw [text, words]
    exact spaced_spelled (.number hx.rereads.1) (h.detached _) h.spaced
  | .object .nil _, h => by
    rw [text, words]
    exact spaced_open (spaced_close h.spaced)
  | .object (.cons hk hv hf) _, h => by
    have close := behind_blank (spaced_close h.spaced)
    have inside := behind_blank (spaced_key hk (hv.spaced (hf.behind close)))
    rw [object_toList, words]
    simpa using spaced_open inside.spaced

theorem PlainFields.behind {fields : List (String × Value)} {rest : List Char} {ws : List Word} :
    PlainFields fields → Behind rest ws →
      Behind ((fieldsText fields).toList ++ rest) (fieldsWords fields ++ ws)
  | .nil, h => h
  | .cons hk hv hf, h => by
    have comma := behind_comma (spaced_key hk (hv.spaced (hf.behind h)))
    rw [fieldsText_toList, fieldsWords]
    simpa using comma

end

mutual

theorem Plain.prints {v : Value} : Plain v → ∀ demand, Prints false demand v.words v.tree
  | .null, demand => .identifier demand "null"
  | .boolean _, demand => .identifier demand _
  | .number (x := x) hx, demand => by
    obtain ⟨simple, y, read, _⟩ := hx.rereads
    refine .number demand (.number simple) ?_
    rw [read, Option.getD_some]
  | .object .nil _, demand => .object demand .none
  | .object (.cons hk hv hf) _, demand => .object demand (hf.prints _ (hv.prints 0))

theorem PlainFields.prints {fields : List (String × Value)} (k : String) {v : Value} :
    PlainFields fields → Prints false 0 v.words v.tree →
      PrintsFields false (⟨.identifier, k⟩ :: ⟨.colon, ":"⟩ :: (v.words ++ fieldsWords fields))
        (.property k (some v.tree) :: fieldTrees fields)
  | .nil, h => by
    rw [fieldsWords, List.append_nil]
    exact .last (.valued k h)
  | .cons hk hv hf, h => .more (.valued k h) (hf.prints _ (hv.prints 0))

end

end Value

end LetLang
