import SourceAudit.Report.Basic

/-!
# Reports on a terminal

One section per concern with its worst findings, a table of counts by severity and the overall verdict.
-/
namespace SourceAudit

def Finding.location (f : Finding) : String :=
  f.file ++ " (Line " ++ toString f.line ++
    (match f.column with
      | none => ""
      | some c => ", Column " ++ toString c) ++ ")"

namespace Report

/-- A text filled up with blanks behind it to a width. -/
def padRight (width : Nat) (s : String) : String := s ++ String.ofList (List.replicate (width - s.length) ' ')

/-- A text filled up with blanks in front of it to a width. -/
def padLeft (width : Nat) (s : String) : String := String.ofList (List.replicate (width - s.length) ' ') ++ s

def tableRow (label count : String) : String := padRight 10 label ++ " | " ++ padLeft 5 count

def findingLine (f : Finding) : String := "    - [" ++ f.severity.name ++ "] " ++ f.location ++ ": " ++ f.message

/-- The lines on the findings of a result, of which at most `maxFindings` are shown. -/
def findingLines (r : Result) (maxFindings : Int) : List String :=
  let shown := r.topFindings maxFindings
  let hidden := r.findings.length - shown.length
  if shown.isEmpty then []
  else
    "  Vulnerabilities:" :: shown.map findingLine ++
      if hidden > 0 then ["    ... " ++ toString hidden ++ " more in report.json"] else []

def concernLines (r : Report) (maxFindings : Int) (result : Result) : List String := [
  result.concern.name ++ ":",
  "  Status  : " ++ (r.state result.concern).name,
  "  Findings: " ++ toString result.findings.length ++ "  Passed checks: " ++ toString result.passedChecks.length] ++
  result.message.toList.map ("  Message : " ++ ·) ++
  result.notes.map ("  Note    : " ++ ·) ++
  findingLines result maxFindings ++
  [""]

/-- The table of counts and the verdict. -/
def totals (r : Report) : List String :=
  let header := tableRow "Severity" "Count"
  let rule := String.ofList (List.replicate header.length '-')
  [header, rule] ++
  r.summary.rows.map (fun (s, n) => tableRow s.name (toString n)) ++ [
    rule,
    "Findings      : " ++ toString r.summary.total,
    "Passed checks : " ++ toString r.totalPassed,
    "Overall       : " ++ if r.isPass then "PASS" else "FAIL"]

def terminalLines (r : Report) (maxFindings : Int := 20) : List String :=
  ["Security Scan Report", String.ofList (List.replicate 40 '=')] ++
  r.results.flatMap (r.concernLines maxFindings) ++
  r.totals

def terminal (r : Report) (maxFindings : Int := 20) : String := "\n".intercalate (r.terminalLines maxFindings)

end Report
end SourceAudit
