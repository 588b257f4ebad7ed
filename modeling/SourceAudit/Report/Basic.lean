import SourceAudit.Association
import SourceAudit.Report.Summary
import SourceAudit.Result

/-!
# Reports

A report holds the results of the concerns that were asked for, in the order in which they were asked for, each
concern once. `Report.ofResults` makes one from results in any order; it fails if a concern has two results, or
if one that was asked for has none.
-/
namespace SourceAudit

/-- The results of some concerns, each concern once. -/
structure Report where
  results : List Result := []
  distinct : (results.map (·.concern)).Nodup := by simp

/-- Why results make no report. -/
inductive ReportFault where
  | duplicate (concern : Concern)
  | missing (concern : Concern)
  deriving DecidableEq, Repr

def ReportFault.message : ReportFault → String
  | .duplicate concern => "Duplicate result for concern " ++ concern.name
  | .missing concern => "Missing result for requested concern " ++ concern.name

namespace Report

def requested (r : Report) : List Concern := r.results.map (·.concern)

def get? (r : Report) (concern : Concern) : Option Result := r.results.find? (·.concern = concern)

/-- A report with one more result, unless its concern has one. -/
def insert (r : Report) (result : Result) : Report :=
  if h : result.concern ∈ r.requested then r
  else
    { results := r.results ++ [result]
      distinct := by
        have h' : ∀ a ∈ r.results.map (·.concern), a ≠ result.concern := fun a ha e => h (e ▸ ha)
        simpa [List.nodup_append, r.distinct] using h' }

/-- Adds a result whose concern has none yet. -/
def insertNew (r : Report) (result : Result) : Except ReportFault Report :=
  if result.concern ∈ r.requested then .error (.duplicate result.concern) else .ok (r.insert result)

/-- Adds the result that another report has for a concern. -/
def insertFrom (all r : Report) (concern : Concern) : Except ReportFault Report :=
  match all.get? concern with
  | none => .error (.missing concern)
  | some result => .ok (r.insert result)

/-- The report of some results: of all of them in their order, or of the concerns asked for. -/
def ofResults (results : List Result) (requested : Option (List Concern) := none) : Except ReportFault Report := do
  let all ← results.foldlM insertNew {}
  match requested with
  | none => return all
  | some concerns => concerns.foldlM (insertFrom all) {}

def findings (r : Report) : List Finding := r.results.flatMap (·.findings)

def totalFindings (r : Report) : Nat := r.findings.length

/-- The number of passed checks. -/
def totalPassed (r : Report) : Nat := (r.results.flatMap (·.passedChecks)).length

/-- The number of concerns for which no rule was evaluated. -/
def concernsWithoutRules (r : Report) : Nat := r.results.countP (·.rulesEvaluated.isEmpty)

/-- The counts of all findings by severity. -/
def summary (r : Report) : Summary := .ofFindings r.findings

/-- The state of a concern, whether it was asked for or not. -/
def state (r : Report) (concern : Concern) : State := .ofResult? (r.get? concern)

def states (r : Report) : List (Concern × State) := Concern.all.map fun c => (c, r.state c)

/-- The number of concerns asked for in each state. -/
def stateCounts (r : Report) : List (State × Nat) :=
  r.requested.foldl (fun counts concern => Association.update (r.state concern) 0 (· + 1) counts)
    (State.all.map fun s => (s, 0))

/-- The number of concerns asked for that are in a state. -/
def countState (r : Report) (s : State) : Nat := (r.stateCounts.lookup s).getD 0

/-- Whether no concern failed or was left incomplete. -/
def isPass (r : Report) : Bool := r.requested.all (r.state · |>.isClean)

end Report

/-- Findings by file, files in order of their first finding. -/
def groupByFile (findings : List Finding) : List (String × List Finding) :=
  findings.foldl (fun groups f => Association.update f.file [] (· ++ [f]) groups) []

def Report.findingsByFile (r : Report) (concern : Concern) : List (String × List Finding) :=
  groupByFile ((r.get? concern).elim [] (·.findings))

end SourceAudit
