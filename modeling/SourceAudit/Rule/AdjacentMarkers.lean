import SourceAudit.Finding
import SourceAudit.Language
import SourceAudit.Pattern.Basic
import SourceAudit.Text.Lines

/-!
# Adjacent markers

A check on the distance of two markers: the first line that carries the one and the first line that carries the
other. If they lie within a window of lines of each other, that is one finding; if they lie further apart, one
passed check for the whole file. A file that lacks one of them is not judged.
-/
namespace SourceAudit

/-- A heuristic on two markers that should stand apart. -/
structure AdjacentMarkers where
  name : String
  concern : Concern
  first : Pattern
  second : Pattern
  findingMessage : String
  passMessage : String
  window : Int := 1
  severity : Severity := .low
  quickFix : String := noQuickFix
  languages : Option (List Language) := none

namespace AdjacentMarkers

/-- Whether a check looks at files of a language. -/
def appliesTo (c : AdjacentMarkers) (language : Option Language) : Bool :=
  match c.languages with
  | none => true
  | some ls => language.any ls.contains

/-- Whether both markers occur anywhere in a text. -/
def triggersOn (c : AdjacentMarkers) (text : List Char) : Bool := c.first.occursIn text && c.second.occursIn text

def evaluate (c : AdjacentMarkers) (file : String) (text : List Char) : Except EntryFault Outcome :=
  let lines := Text.lines text
  match lines.findIdx? c.first.occursIn, lines.findIdx? c.second.occursIn with
  | some a, some b =>
    if ((a : Int) - b).natAbs ≤ c.window then do
      let line := min a b + 1
      let finding : Finding := {
        file, line, message := c.findingMessage, category := c.concern, severity := c.severity, rule := c.name
        quickFix := c.quickFix }
      return { findings := [← finding.place line none] }
    else do
      let check : PassedCheck := { file, message := c.passMessage, category := c.concern, rule := c.name }
      return { passedChecks := [← check.place none] }
  | _, _ => .ok {}

end AdjacentMarkers
end SourceAudit
