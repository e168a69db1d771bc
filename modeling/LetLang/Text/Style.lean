namespace LetLang

inductive Style where
  | bold
  | alarm
  deriving DecidableEq, Repr

structure Painter where
  colored : Bool
  paint : Style → String → String
  uncolored : colored = false → ∀ style text, paint style text = text

namespace Painter

def plain : Painter := ⟨false, fun _ text => text, fun _ _ _ => rfl⟩

end Painter

end LetLang
