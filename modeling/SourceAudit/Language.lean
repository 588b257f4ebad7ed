import SourceAudit.Path
import SourceAudit.Text.Lowercase

/-!
# Languages

The language of a file follows from its extension alone, in any letter case.
-/
namespace SourceAudit

/-- A programming language, known by its name. -/
structure Language where
  name : String
  deriving DecidableEq, Repr, Inhabited

namespace Language

def javaScript : Language := ⟨"JavaScript"⟩
def python : Language := ⟨"Python"⟩
def php : Language := ⟨"PHP"⟩
def java : Language := ⟨"Java"⟩

def extensions : List (String × Language) := [
  (".js", javaScript), (".mjs", javaScript), (".cjs", javaScript), (".jsx", javaScript), (".ts", javaScript),
  (".tsx", javaScript), (".py", python), (".php", php), (".java", java)]

def ofPath? (p : Path) : Option Language := extensions.lookup (Text.lower p.suffix)

/-- Inserts a name into ascending names, if it is not among them. -/
def insertName (name : String) : List String → List String
  | [] => [name]
  | n :: rest => if name = n then n :: rest else if name < n then name :: n :: rest else n :: insertName name rest

/-- The names of the languages of some files, ascending, each once. -/
def namesOf (paths : List Path) : List String :=
  (paths.filterMap ofPath?).foldl (fun names l => insertName l.name names) []

end Language
end SourceAudit
