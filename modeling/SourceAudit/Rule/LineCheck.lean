import SourceAudit.Finding
import SourceAudit.Language
import SourceAudit.Pattern.Basic
import SourceAudit.Text.Lines

/-!
# Line checks

A line check looks at each line on its own. A line on which the trigger occurs yields exactly one verdict: a
finding if the line violates the check, otherwise a passed check. A line violates a check that requires
something which is absent, or forbids something which is present; a check that does neither is violated by every
trigger.
-/
namespace SourceAudit

/-- A heuristic on single lines, with an optional mitigation on the same line. -/
structure LineCheck where
  name : String
  concern : Concern
  trigger : Pattern
  findingMessage : String
  passMessage : Option String := none
  requires : Option Pattern := none
  forbids : Option Pattern := none
  severity : Severity := .medium
  quickFix : String := noQuickFix
  languages : Option (List Language) := none

namespace LineCheck

/-- Whether a triggered line can still pass. -/
def isConditional (c : LineCheck) : Bool := c.requires.isSome || c.forbids.isSome

/-- Whether a check is complete: one that a line can pass says so in words. -/
def isComplete (c : LineCheck) : Bool := !c.isConditional || c.passMessage.isSome

inductive Fault where
  | withoutPassMessage (name : String)
  deriving DecidableEq, Repr

def Fault.message : Fault → String
  | .withoutPassMessage name => name ++ ": conditional checks need a pass_message"

def validated (c : LineCheck) : Except Fault LineCheck :=
  if c.isComplete then .ok c else .error (.withoutPassMessage c.name)

/-- Whether a check looks at files of a language. -/
def appliesTo (c : LineCheck) (language : Option Language) : Bool :=
  match c.languages with
  | none => true
  | some ls => language.any ls.contains

/-- Whether the trigger occurs anywhere in a text. -/
def triggersOn (c : LineCheck) (text : List Char) : Bool := c.trigger.occursIn text

def violates (c : LineCheck) (line : List Char) : Bool :=
  c.requires.any (fun p => !p.occursIn line) || c.forbids.any (·.occursIn line) || !c.isConditional

def judge (c : LineCheck) (file : String) (number : Nat) (line : List Char) : Except EntryFault Outcome :=
  match c.trigger.find? line with
  | none => .ok {}
  | some start =>
    if c.violates line then do
      let finding : Finding := {
        file, line := number, message := c.findingMessage, category := c.concern, severity := c.severity
        rule := c.name, quickFix := c.quickFix }
      return { findings := [← finding.place number (some (start + 1))] }
    else do
      let check : PassedCheck := { file, message := c.passMessage.getD "", category := c.concern, rule := c.name }
      return { passedChecks := [← check.place (some number)] }

/-- The verdicts on all lines of a text. -/
def evaluate (c : LineCheck) (file : String) (text : List Char) : Except EntryFault Outcome :=
  return Outcome.combine (← ((Text.lines text).zipIdx 1).mapM fun (line, number) => c.judge file number line)

end LineCheck
end SourceAudit
