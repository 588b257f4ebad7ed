import SourceAudit.Concern

/-!
# Findings and passed checks

A finding is a possible issue at a line of a file; a passed check is evidence that a check came out clean. Both
name a file, and positions count from one. The number of a line or column is refused where a value is made, so
that a finding holds positive numbers only; the column of a passed check is kept as it is given.
-/
namespace SourceAudit

/-- The advice of a finding that has none. -/
def noQuickFix : String := "No quick fix available."

/-- A possible issue at a line of a file. -/
structure Finding where
  file : String
  line : Nat
  column : Option Nat := none
  message : String
  category : Concern
  severity : Severity
  rule : String
  quickFix : String := noQuickFix
  deriving DecidableEq, Repr

/-- Evidence that a check came out clean. -/
structure PassedCheck where
  file : String
  message : String
  category : Concern
  rule : String
  line : Option Nat := none
  column : Option Int := none
  deriving DecidableEq, Repr

/-- Why a finding or a passed check cannot be made. -/
inductive EntryFault where
  | findingWithoutFile
  | findingLine (line : Int)
  | findingColumn (column : Int)
  | checkWithoutFile
  | checkLine (line : Int)
  deriving DecidableEq, Repr

def EntryFault.message : EntryFault → String
  | .findingWithoutFile => "Finding.file must not be empty"
  | .findingLine line => "Finding.line must be >= 1, got " ++ toString line
  | .findingColumn column => "Finding.column must be >= 1, got " ++ toString column
  | .checkWithoutFile => "PassedCheck.file must not be empty"
  | .checkLine line => "PassedCheck.line must be >= 1, got " ++ toString line

/-- A finding at a given place: the file must have a name, the positions must be positive. -/
def Finding.place (f : Finding) (line : Int) (column : Option Int) : Except EntryFault Finding :=
  if f.file = "" then .error .findingWithoutFile
  else if line < 1 then .error (.findingLine line)
  else
    match column with
    | none => .ok { f with line := line.toNat, column := none }
    | some c => if c < 1 then .error (.findingColumn c) else .ok { f with line := line.toNat, column := some c.toNat }

/-- A passed check at a given line, if any: the file must have a name, the line must be positive. -/
def PassedCheck.place (p : PassedCheck) (line : Option Int) : Except EntryFault PassedCheck :=
  if p.file = "" then .error .checkWithoutFile
  else
    match line with
    | none => .ok { p with line := none }
    | some n => if n < 1 then .error (.checkLine n) else .ok { p with line := some n.toNat }

/-- What rules found in a file. -/
structure Outcome where
  findings : List Finding := []
  passedChecks : List PassedCheck := []
  deriving DecidableEq, Repr

namespace Outcome

/-- One outcome after another. -/
def append (a b : Outcome) : Outcome := ⟨a.findings ++ b.findings, a.passedChecks ++ b.passedChecks⟩

instance : Append Outcome := ⟨append⟩

/-- Outcomes one after another. -/
def combine (outcomes : List Outcome) : Outcome :=
  ⟨outcomes.flatMap (·.findings), outcomes.flatMap (·.passedChecks)⟩

/-- Whether an outcome holds neither findings nor passed checks. -/
def isEmpty (o : Outcome) : Bool := o.findings.isEmpty && o.passedChecks.isEmpty

end Outcome
end SourceAudit
