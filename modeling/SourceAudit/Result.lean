import SourceAudit.Finding
import SourceAudit.Sorting

/-!
# The result of a concern

What judging one concern on one tree came to, and the single state that a report shows for it. A concern with
nothing to judge has no subject; it has not failed. A linter that could not be used leaves the concern incomplete
unless there are findings, so that it never reads as a pass.
-/
namespace SourceAudit

/-- What judging a concern came to. -/
structure Result where
  concern : Concern
  /-- Whether there was a file to look at. -/
  applicable : Bool := false
  /-- Whether some file had to do with the concern. -/
  implemented : Bool := false
  findings : List Finding := []
  passedChecks : List PassedCheck := []
  rulesEvaluated : List String := []
  filesScanned : Nat := 0
  skippedFiles : List String := []
  notes : List String := []
  /-- Whether the linter could not be used. -/
  toolFailed : Bool := false
  deriving DecidableEq, Repr

/-- What a report shows for a concern. -/
inductive State where
  | notRun
  | noSubject
  | incomplete
  | passed
  | failed
  deriving DecidableEq, Repr

namespace State

/-- States in the order in which they are counted. -/
def all : List State := [notRun, noSubject, incomplete, passed, failed]

/-- The name shown in reports. -/
def name : State → String
  | notRun => "NOT_RUN"
  | noSubject => "NO_SUBJECT"
  | incomplete => "INCOMPLETE"
  | passed => "PASSED"
  | failed => "FAILED"

/-- Whether a state leaves the whole report clean. -/
def isClean (s : State) : Bool := s != failed && s != incomplete

end State

namespace Result

/-- Whether a concern was judged and came out clean. -/
def isPass (r : Result) : Bool :=
  r.implemented && r.findings.isEmpty && !r.passedChecks.isEmpty && !r.toolFailed

/-- The state of a concern that was run. -/
def state (r : Result) : State :=
  if r.toolFailed && r.findings.isEmpty then .incomplete
  else if !r.applicable || !r.implemented then .noSubject
  else if r.isPass then .passed
  else .failed

/-- What to say about a concern that had nothing to judge. -/
def message (r : Result) : Option String :=
  if !r.applicable then some ("No relevant files found for the " ++ r.concern.name ++ " scan.")
  else if !r.implemented && !r.toolFailed then
    some ("No " ++ r.concern.name ++
      " implementation detected. This is not necessarily an issue, but ensure it's intentional.")
  else none

/-- The findings, most severe first; equally severe ones keep their order. -/
def rankedFindings (r : Result) : List Finding := sortBy (·.severity.rank) r.findings

/-- How many of `total` items a limit admits; a negative limit leaves so many out. -/
def admitted (total : Nat) (limit : Int) : Nat := if limit < 0 then total - limit.natAbs else limit.toNat

/-- The most severe findings, up to a limit. -/
def topFindings (r : Result) (limit : Int := 5) : List Finding :=
  r.rankedFindings.take (admitted r.findings.length limit)

/-- The result of a concern without any file to look at. -/
def notApplicable (concern : Concern) : Result := { concern }

end Result

/-- The state of a concern that may not have been run. -/
def State.ofResult? : Option Result → State
  | none => .notRun
  | some r => r.state

end SourceAudit
