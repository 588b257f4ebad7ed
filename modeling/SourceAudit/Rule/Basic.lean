import SourceAudit.Rule.AdjacentMarkers
import SourceAudit.Rule.LineCheck

/-!
# Rules

A rule is a line check or a check on adjacent markers. Rules are evaluated one after another on the text of a
file.
-/
namespace SourceAudit

/-- A heuristic on the text of one file. -/
inductive Rule where
  | line (check : LineCheck)
  | adjacent (check : AdjacentMarkers)

namespace Rule

def name : Rule → String
  | line c => c.name
  | adjacent c => c.name

/-- Whether a rule looks at files of a language. -/
def appliesTo : Rule → Option Language → Bool
  | line c => c.appliesTo
  | adjacent c => c.appliesTo

/-- Whether what a rule looks for occurs anywhere in a text. -/
def triggersOn : Rule → List Char → Bool
  | line c => c.triggersOn
  | adjacent c => c.triggersOn

/-- What a rule finds in a file. -/
def evaluate : Rule → String → List Char → Except EntryFault Outcome
  | line c => c.evaluate
  | adjacent c => c.evaluate

/-- What rules find in a file, one after another. -/
def evaluateAll (rules : List Rule) (file : String) (text : List Char) : Except EntryFault Outcome :=
  return Outcome.combine (← rules.mapM (·.evaluate file text))

end Rule
end SourceAudit
