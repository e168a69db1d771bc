import LetLang.Environment
import LetLang.Value.Text

namespace LetLang

namespace Scope

def detail (s : Scope) : String :=
  "\x7b" ++ String.intercalate ", " (s.values.map fun v => quoted v.1 ++ ": " ++ v.2.detail) ++
    "\x7d"

end Scope

namespace Environment

def scopesDetail : List Scope → String
  | [] => "None"
  | s :: rest => "Environment(" ++ s.detail ++ ", parent=" ++ scopesDetail rest ++ ")"

def detail (e : Environment) : String := scopesDetail e.scopes

end Environment

end LetLang
