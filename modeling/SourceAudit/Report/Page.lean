import SourceAudit.Report.Document
import SourceAudit.Report.Terminal
import SourceAudit.Text.Markup

/-!
# Reports as a web page

A page of its own with a chart of the states and one block per concern. Every text that comes from the tree or
from a linter is written as markup text, so it can neither open nor close an element or an attribute.
-/
namespace SourceAudit.Report

def chartSource : String := "https://cdn.jsdelivr.net/npm/chart.js"

/-- The states shown in the chart, and their colours. -/
def stateColors : List (State × String) :=
  [(.passed, "#27ae60"), (.failed, "#c0392b"), (.noSubject, "#7f8c8d"), (.incomplete, "#e67e22")]

def styleRules : List (String × String) := [
  ("body", "font-family: Arial, sans-serif; line-height: 1.6; color: #333; max-width: 860px; margin: 0 auto; " ++
    "padding: 20px;"),
  ("h1", "color: #2c3e50; text-align: center;"),
  (".check", "background-color: #f9f9f9; border-radius: 5px; padding: 15px; margin-bottom: 20px;"),
  (".check h2", "margin-top: 0; color: #34495e;"),
  (".status", "font-weight: bold;"),
  (".PASSED", "color: #27ae60;"),
  (".FAILED", "color: #c0392b;"),
  (".NO_SUBJECT", "color: #7f8c8d;"),
  (".INCOMPLETE", "color: #e67e22;"),
  (".vulnerability", "background-color: #ecf0f1; padding: 10px; border-radius: 3px; margin-bottom: 5px;"),
  (".fix", "color: #555; font-style: italic;"),
  (".note", "background-color: #fdf2e9; padding: 8px; border-radius: 3px;"),
  ("#chart", "width: 100%; max-width: 600px; margin: 20px auto;")]

def styleSheet : String :=
  "\n" ++ String.join (styleRules.map fun (selector, body) => selector ++ " \x7b " ++ body ++ " \x7d\n")

def chartData (r : Report) : Json := .object [
  ("labels", .array (stateColors.map fun (s, _) => .string s.name)),
  ("values", .array (stateColors.map fun (s, _) => .int (r.countState s))),
  ("colors", .array (stateColors.map fun (_, color) => .string color))]

def findingElement (f : Finding) : String :=
  "<div class=\"vulnerability\">[" ++ f.severity.name ++ "] " ++ Text.markup f.location ++ ": " ++
    Text.markup f.message ++ "<div class=\"fix\">" ++ Text.markup f.quickFix ++ "</div></div>"

def findingElements (result : Result) : List String :=
  if result.findings.isEmpty then []
  else
    "<div class=\"vulnerabilities\"><h3>Vulnerabilities:</h3>" :: result.findings.map findingElement ++ ["</div>"]

def concernElements (r : Report) (result : Result) : List String :=
  let state := (r.state result.concern).name
  [ "<div class=\"check\">",
    "<h2>" ++ Text.markup result.concern.name ++ "</h2>",
    "<p class=\"status " ++ state ++ "\">Status: " ++ state ++ "</p>",
    "<p>Findings: " ++ toString result.findings.length ++ " &middot; Passed checks: " ++
      toString result.passedChecks.length ++ "</p>"] ++
  result.message.toList.map (fun m => "<p>Message: " ++ Text.markup m ++ "</p>") ++
  result.notes.map (fun n => "<p class=\"note\">" ++ Text.markup n ++ "</p>") ++
  findingElements result ++
  ["</div>"]

def pageLines (r : Report) : List String := [
  "<!DOCTYPE html>",
  "<html lang=\"en\">",
  "<head>",
  "<meta charset=\"UTF-8\">",
  "<meta name=\"viewport\" content=\"width=device-width, initial-scale=1.0\">",
  "<title>Security Scan Report</title>",
  "<script src=\"" ++ chartSource ++ "\"></script>",
  "<style>" ++ styleSheet ++ "</style>",
  "</head>",
  "<body>",
  "<h1>Security Scan Report</h1>",
  "<p>Total findings: " ++ toString r.totalFindings ++ " &middot; Total passed checks: " ++
    toString r.totalPassed ++ "</p>",
  "<div id=\"chart\"><canvas id=\"securityChart\"></canvas></div>",
  "<div id=\"results\">"] ++
  r.results.flatMap r.concernElements ++ [
  "</div>",
  "<script>",
  "const chartData = " ++ Text.script r.chartData.compact ++ ";",
  "new Chart(document.getElementById('securityChart').getContext('2d'), \x7b",
  "  type: 'pie',",
  "  data: \x7b labels: chartData.labels, datasets: [\x7b data: chartData.values, backgroundColor: " ++
    "chartData.colors \x7d] \x7d,",
  "  options: \x7b responsive: true, plugins: \x7b legend: \x7b position: 'top' \x7d, title: \x7b display: true, " ++
    "text: 'Security Scan Results' \x7d \x7d \x7d",
  "\x7d);",
  "</script>",
  "</body>",
  "</html>"]

def page (r : Report) : String := "\n".intercalate r.pageLines

end SourceAudit.Report
