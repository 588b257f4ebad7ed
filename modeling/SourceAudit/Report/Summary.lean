import SourceAudit.Finding

/-!
# Counts by severity
-/
namespace SourceAudit

/-- How many findings there are of each severity. -/
structure Summary where
  high : Nat := 0
  medium : Nat := 0
  low : Nat := 0
  info : Nat := 0
  deriving DecidableEq, Repr

namespace Summary

def count (s : Summary) : Severity → Nat
  | .high => s.high
  | .medium => s.medium
  | .low => s.low
  | .info => s.info

def increment (s : Summary) : Severity → Summary
  | .high => { s with high := s.high + 1 }
  | .medium => { s with medium := s.medium + 1 }
  | .low => { s with low := s.low + 1 }
  | .info => { s with info := s.info + 1 }

def ofFindings (findings : List Finding) : Summary := findings.foldl (fun s f => s.increment f.severity) {}

/-- Severities with their counts, most severe first. -/
def rows (s : Summary) : List (Severity × Nat) := Severity.all.map fun v => (v, s.count v)

/-- The number of findings counted. -/
def total (s : Summary) : Nat := Severity.all.foldl (fun n v => n + s.count v) 0

end Summary
end SourceAudit
