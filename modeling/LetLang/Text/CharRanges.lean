namespace LetLang

abbrev CharRanges := List (Nat × Nat)

namespace CharRanges

def contains : CharRanges → Char → Bool
  | [], _ => false
  | (first, last) :: rest, c =>
    if c.toNat < first then false else decide (c.toNat ≤ last) || contains rest c

end CharRanges

end LetLang
