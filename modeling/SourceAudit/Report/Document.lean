import SourceAudit.Json.Writer
import SourceAudit.Report.Basic

/-!
# Reports as JSON

A summary, and for each concern its state, its findings by file and its passed checks.
-/
namespace SourceAudit

/-- A number, or null. -/
def Json.ofInt? (n : Option Int) : Json := n.elim .null .int

/-- A text, or null. -/
def Json.ofString? (s : Option String) : Json := s.elim .null .string

/-- A finding in the list of its file. -/
def Finding.toJson (f : Finding) : Json := .object [
  ("line", .int f.line), ("column", .ofInt? (f.column.map Int.ofNat)), ("message", .string f.message),
  ("type", .string f.category.name), ("severity", .string f.severity.name), ("rule", .string f.rule),
  ("quickFix", .string f.quickFix)]

def PassedCheck.toJson (p : PassedCheck) : Json := .object [
  ("file", .string p.file), ("message", .string p.message), ("category", .string p.category.name),
  ("rule", .string p.rule), ("line", .ofInt? (p.line.map Int.ofNat)), ("column", .ofInt? p.column)]

/-- Counts by severity. -/
def Summary.toJson (s : Summary) : Json := .object [
  ("high", .int s.high), ("medium", .int s.medium), ("low", .int s.low), ("info", .int s.info)]

namespace Report

def findingsJson (r : Report) (concern : Concern) : Json :=
  .object ((r.findingsByFile concern).map fun (file, findings) => (file, .array (findings.map (·.toJson))))

def concernJson (r : Report) (result : Result) : Json := .object [
  ("state", .string (r.state result.concern).name),
  ("passed", .bool result.isPass),
  ("message", .ofString? result.message),
  ("notes", .array (result.notes.map .string)),
  ("rulesEvaluated", .array (result.rulesEvaluated.map .string)),
  ("findings", r.findingsJson result.concern),
  ("passedChecks", .array (result.passedChecks.map (·.toJson)))]

def toJson (r : Report) : Json := .object [
  ("summary", .object [
    ("requested", .array (r.requested.map fun c => .string c.name)),
    ("totalFindings", .int r.totalFindings),
    ("totalPassed", .int r.totalPassed),
    ("concernsWithoutRules", .int r.concernsWithoutRules),
    ("severity", r.summary.toJson)]),
  ("concerns", .object (r.results.map fun result => (result.concern.name, r.concernJson result)))]

/-- A report as JSON text. -/
def document (r : Report) : String := r.toJson.pretty

end Report
end SourceAudit
