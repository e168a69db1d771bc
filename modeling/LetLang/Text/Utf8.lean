namespace LetLang.Utf8

inductive Reason where
  | badStart
  | badContinuation
  | endOfData
  deriving DecidableEq, Repr

structure Fault where
  reason : Reason
  position : Nat
  first : UInt8
  length : Nat
  deriving DecidableEq, Repr

def followers? (first : UInt8) : Option (Nat × UInt8 × UInt8) :=
  if 0xC2 ≤ first ∧ first ≤ 0xDF then some (1, 0x80, 0xBF)
  else if first = 0xE0 then some (2, 0xA0, 0xBF)
  else if first = 0xED then some (2, 0x80, 0x9F)
  else if 0xE1 ≤ first ∧ first ≤ 0xEF then some (2, 0x80, 0xBF)
  else if first = 0xF0 then some (3, 0x90, 0xBF)
  else if 0xF1 ≤ first ∧ first ≤ 0xF3 then some (3, 0x80, 0xBF)
  else if first = 0xF4 then some (3, 0x80, 0x8F)
  else none

def leadBits (needed : Nat) (first : UInt8) : Nat := first.toNat % Nat.pow 2 (6 - needed)

structure Pending where
  first : UInt8
  start : Nat
  code : Nat
  needed : Nat
  least : UInt8
  greatest : UInt8

def Pending.fault (p : Pending) (reason : Reason) (position : Nat) : Fault :=
  ⟨reason, p.start, p.first, position - p.start⟩

def decodeFrom : (position : Nat) → Option Pending → List UInt8 → Except Fault (List Char)
  | _, none, [] => .ok []
  | position, some p, [] => .error (p.fault .endOfData position)
  | position, none, b :: rest =>
    if b < 0x80 then (Char.ofNat b.toNat :: ·) <$> decodeFrom (position + 1) none rest
    else
      match followers? b with
      | none => .error ⟨.badStart, position, b, 1⟩
      | some (needed, least, greatest) =>
        decodeFrom (position + 1) (some ⟨b, position, leadBits needed b, needed, least, greatest⟩)
          rest
  | position, some p, b :: rest =>
    if p.least ≤ b ∧ b ≤ p.greatest then
      let code := p.code * 64 + b.toNat % 64
      if p.needed ≤ 1 then (Char.ofNat code :: ·) <$> decodeFrom (position + 1) none rest
      else
        decodeFrom (position + 1) (some { p with
          code, needed := p.needed - 1, least := 0x80, greatest := 0xBF }) rest
    else .error (p.fault .badContinuation position)

def decode (bytes : List UInt8) : Except Fault String :=
  String.ofList <$> decodeFrom 0 none bytes

end LetLang.Utf8
