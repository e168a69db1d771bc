import LetLang.Number.Decimal

namespace LetLang.Magnitude

def exactCoefficient (m : Magnitude) : Nat := m.units * Nat.pow 5 1074

def exact (m : Magnitude) : Decimal := ⟨m.exactCoefficient, -1074⟩

def ReadsAs (d : Decimal) (m : Magnitude) : Prop := Number.ofDecimal false d = .finite false m

instance (d : Decimal) (m : Magnitude) : Decidable (ReadsAs d m) :=
  inferInstanceAs (Decidable (_ = _))

def nearestCut? (m : Magnitude) (dropped : Nat) : Option Decimal :=
  let step := Nat.pow 10 dropped
  let coefficient := m.exactCoefficient / step
  let cut := 2 * (m.exactCoefficient % step)
  let below : Decimal := ⟨coefficient, dropped - 1074⟩
  let above : Decimal := ⟨coefficient + 1, dropped - 1074⟩
  if ReadsAs below m then
    if ReadsAs above m ∧ (step < cut ∨ (cut = step ∧ coefficient % 2 = 1)) then some above
    else some below
  else if ReadsAs above m then some above
  else none

def shortest (m : Magnitude) : Decimal :=
  let width := (Digits.ofNat m.exactCoefficient).length
  ((List.range' 1 17).findSome? fun n => m.nearestCut? (width - n)).getD m.exact

end LetLang.Magnitude
