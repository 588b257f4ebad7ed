import SourceAudit.Disk.Lookup
import SourceAudit.Finding
import SourceAudit.Json.Display
import SourceAudit.Json.Reader
import SourceAudit.Number.Decimal

/-!
# What can go wrong with a linter

A linter is *unusable* if it cannot be started, fails, or answers with something other than a list of file
results; an audit then goes on without it. Values of the wrong kind *inside* a file result break the audit off.
-/
namespace SourceAudit

/-- A value in the answer of a linter. -/
abbrev LintJson := Json WideText

inductive Unusable where
  /-- The linter says so itself. -/
  | reported (text : String)
  | commandNotFound (command : String)
  | timedOut (seconds : Binary64)
  | notStarted (detail : String)
  /-- It ended with a status that means failure; the first line of what it said, if anything. -/
  | exited (status : Int) (detail : Option String)
  | malformedOutput (error : Json.ReadError)
  | outputNotList
  | malformedEntry (linter : String) (entry : LintJson)
  deriving Repr

/-- The wording of the reason. -/
def Unusable.message : Unusable → String
  | .reported text => text
  | .commandNotFound command => command ++ " executable not found"
  | .timedOut seconds => "eslint timed out after " ++ seconds.general ++ "s"
  | .notStarted detail => "eslint could not be started: " ++ detail
  | .exited status detail => "eslint exited with status " ++ toString status ++ ": " ++ detail.getD "no output"
  | .malformedOutput error => "eslint produced malformed JSON: " ++ error.message
  | .outputNotList => "eslint JSON output is not a list of file results"
  | .malformedEntry linter entry => linter ++ " returned a malformed file result: " ++ entry.literal

/-- What breaks an audit off. -/
inductive Breakage where
  /-- A command that was not found has no name. -/
  | noCommand
  /-- A number of the output is too long to read. -/
  | outputNumber (digits : Nat)
  /-- The output is nested too deeply. -/
  | outputDepth
  /-- The path of a file result is no text. -/
  | pathNotText (value : LintJson)
  /-- The path of a file cannot be resolved. -/
  | unresolvable (fault : Disk.ResolveFault)
  /-- The messages of a file result are no list. -/
  | messagesNotList (value : LintJson)
  /-- The rule of a message is a list or an object. -/
  | ruleNotText (value : LintJson)
  /-- The position of a message is infinite. -/
  | infinitePosition
  /-- A finding or a passed check cannot be made. -/
  | entry (fault : EntryFault)
  deriving Repr

/-- The wording of the reason. -/
def Breakage.message : Breakage → String
  | .noCommand => "tuple index out of range"
  | .outputNumber digits => (Json.ReadError.tooManyDigits digits).message
  | .outputDepth => Json.ReadError.tooDeep.message
  | .pathNotText value => "expected str, bytes or os.PathLike object, not " ++ value.kindName
  | .unresolvable fault => fault.message
  | .messagesNotList value => "'" ++ value.kindName ++ "' object is not iterable"
  | .ruleNotText value => "unhashable type: '" ++ value.kindName ++ "'"
  | .infinitePosition => "cannot convert float infinity to integer"
  | .entry fault => fault.message

/-- Why linting gives no report. -/
inductive LintFault where
  | unusable (reason : Unusable)
  | broken (reason : Breakage)
  deriving Repr

def LintFault.message : LintFault → String
  | .unusable reason => reason.message
  | .broken reason => reason.message

end SourceAudit
