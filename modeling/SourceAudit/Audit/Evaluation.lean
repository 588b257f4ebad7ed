import SourceAudit.Disk.Listing
import SourceAudit.Profile
import SourceAudit.Result
import SourceAudit.SourceText

/-!
# What single files contribute

Each candidate file of a concern is evaluated on its own: it is passed over, left to the linter, found to have
nothing to do with the concern, or judged by the rules for its language. The result of the concern is put together
from what the files contribute, in the order of the candidates.
-/
namespace SourceAudit

open Disk (Candidate)

/-- What became of a candidate file. -/
inductive Evaluation where
  /-- It could not be looked at. -/
  | skipped
  /-- It is left to the linter. -/
  | delegated
  /-- It has nothing to do with the concern. -/
  | outside
  /-- Some rules judged it. -/
  | judged (rules : List String) (outcome : Outcome)
  deriving DecidableEq, Repr

namespace Profile

/-- What becomes of a file with a text. -/
def evaluateText (p : Profile) (c : Candidate) (text : List Char) : Except EntryFault Evaluation :=
  let language := Language.ofPath? c.path
  if p.delegates language then .ok .delegated
  else
    let rules := p.rulesFor language
    if rules.isEmpty || !p.observes rules text then .ok .outside
    else return .judged (rules.map (·.name)) (← Rule.evaluateAll rules c.relative text)

/-- What becomes of a file. -/
def evaluate (p : Profile) (d : Disk) (c : Candidate) : Except EntryFault Evaluation :=
  match (SourceText.read d c.path).text? with
  | none => .ok .skipped
  | some text => p.evaluateText c text

/-- What is logged about a file. -/
def logOf (p : Profile) (d : Disk) (c : Candidate) : Evaluation → List LogLine
  | .skipped => (SourceText.read d c.path).log c.path
  | .outside => [⟨.debug, .audit, c.relative ++ ": no " ++ p.concern.name ++ " subject matter"⟩]
  | _ => []

end Profile

/-- A candidate file and what became of it. -/
abbrev EvaluatedFile := Candidate × Evaluation

namespace EvaluatedFile

/-- The rules that judged a file and what they found, if it had to do with the concern. The linter gave `outcomes`
for the files that were left to it. -/
def contribution (linterName : String) (outcomes : List (String × Outcome)) (f : EvaluatedFile) :
    Option (List String × Outcome) :=
  match f.2 with
  | .judged rules outcome => some (rules, outcome)
  | .delegated => (outcomes.lookup f.1.relative).map ([linterName], ·)
  | _ => none

/-- Whether a file could not be looked at. -/
def isSkipped (f : EvaluatedFile) : Bool := f.2 = .skipped

/-- Whether a file is left to the linter. -/
def isDelegated (f : EvaluatedFile) : Bool := f.2 = .delegated

end EvaluatedFile

namespace Profile

def linterName (p : Profile) : String := p.linter.elim "" (·.name)

/-- The names of the rules and of the linter that are among those that judged a file, in the order of the profile. -/
def evaluatedNames (p : Profile) (ran : List String) : List String :=
  (p.rules.map (·.name)).filter ran.contains ++ (p.linter.toList.map (·.name)).filter ran.contains

/-- The result of a concern, from its files and from what the linter said about those left to it. -/
def resultOf (p : Profile) (files : List EvaluatedFile) (lint : LintReport) (toolFailed : Bool) : Result :=
  let contributions := files.filterMap (·.contribution p.linterName lint.outcomes)
  let outcome := Outcome.combine (contributions.map (·.2))
  { concern := p.concern
    applicable := true
    implemented := !contributions.isEmpty
    findings := outcome.findings
    passedChecks := outcome.passedChecks
    rulesEvaluated := p.evaluatedNames (contributions.flatMap (·.1))
    filesScanned := files.countP (!·.isSkipped)
    skippedFiles := (files.filter (·.isSkipped)).map (·.1.relative)
    notes := lint.notes
    toolFailed }

end Profile
end SourceAudit
