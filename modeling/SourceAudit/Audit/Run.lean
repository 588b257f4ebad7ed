import SourceAudit.Audit.Evaluation
import SourceAudit.Report.Basic

/-!
# Audits

An audit judges concerns on a tree, one after another, and puts the results together in a report. A linter that is
unusable costs the files that were left to it and is noted in the result; anything else that goes wrong ends the
audit.

A run keeps what it logged and the calls that it made, whether it succeeds or not.
-/
namespace SourceAudit

open Disk (Candidate)

/-- Why an audit ends without a report. -/
inductive AuditFault where
  | rootMissing (root : Path)
  | rootNotDirectory (root : Path)
  | unregistered (concern : Concern)
  | report (fault : ReportFault)
  | entry (fault : EntryFault)
  | linter (reason : Breakage)
  deriving Repr

def AuditFault.message : AuditFault → String
  | .rootMissing root => "Repository path does not exist: " ++ root.toString
  | .rootNotDirectory root => "Repository path is not a directory: " ++ root.toString
  | .unregistered concern => "No rules registered for concern " ++ concern.name
  | .report fault => fault.message
  | .entry fault => fault.message
  | .linter reason => reason.message

/-- What a run came to, what it logged and the calls it made. -/
structure Run (α : Type) where
  outcome : Except AuditFault α
  log : List LogLine := []
  calls : List (List String) := []

/-- The parts of an audit: how concerns are judged, on which disk, without which directories. -/
structure Audit where
  registry : Registry
  disk : Disk
  ignoredDirs : List String := defaultIgnoredDirs

namespace Audit

def checkRoot (a : Audit) (root : Path) : Except AuditFault Unit :=
  if !a.disk.has root then .error (.rootMissing root)
  else if !a.disk.isDir root then .error (.rootNotDirectory root)
  else .ok ()

/-- What linting the files that are left to the linter came to: what it reports, and whether it was unusable. -/
structure Linted where
  outcome : Except AuditFault (LintReport × Bool)
  log : List LogLine := []
  calls : List (List String) := []

/-- Lints the files that are left to the linter. -/
def lint (a : Audit) (p : Profile) (callsBefore : Nat) (files : List EvaluatedFile) : Linted :=
  let delegated := (files.filter (·.isDelegated)).map fun f => (f.1.path, f.1.relative)
  match p.linter with
  | none => { outcome := .ok ({}, false) }
  | some linter =>
    if delegated.isEmpty then { outcome := .ok ({}, false) }
    else
      let run := linter.lint a.disk.resolve callsBefore delegated
      match run.report with
      | .ok report => { outcome := .ok (report, false), log := run.log, calls := run.calls }
      | .error (.unusable reason) =>
        { outcome := .ok ({ notes := [linter.name ++ " unavailable: " ++ reason.message] }, true)
          log := run.log ++ [⟨.warning, .audit,
            linter.name ++ " unavailable for " ++ p.concern.name ++ ": " ++ reason.message⟩]
          calls := run.calls }
      | .error (.broken reason) => { outcome := .error (.linter reason), log := run.log, calls := run.calls }

/-- What is logged about files that were passed over. -/
def skippedLog (concern : Concern) (skipped : List String) : List LogLine :=
  if skipped.isEmpty then []
  else [⟨.warning, .audit, concern.name ++ ": skipped " ++ toString skipped.length ++ " unreadable file(s)"⟩]

/-- Judges a concern on candidate files. -/
def judge (a : Audit) (p : Profile) (callsBefore : Nat) (candidates : List Candidate) : Run Result :=
  match candidates.mapM (p.evaluate a.disk) with
  | .error fault => { outcome := .error (.entry fault) }
  | .ok evaluations =>
    let files := candidates.zip evaluations
    let log := files.flatMap fun (c, e) => p.logOf a.disk c e
    let linted := a.lint p callsBefore files
    match linted.outcome with
    | .error fault => { outcome := .error fault, log := log ++ linted.log, calls := linted.calls }
    | .ok (report, toolFailed) =>
      let result := p.resultOf files report toolFailed
      { outcome := .ok result
        log := log ++ linted.log ++ skippedLog p.concern result.skippedFiles
        calls := linted.calls }

/-- Judges a concern on a tree. -/
def runConcern (a : Audit) (callsBefore : Nat) (root : Path) (concern : Concern) : Run Result :=
  match a.checkRoot root with
  | .error fault => { outcome := .error fault }
  | .ok () =>
    match a.registry.find? concern with
    | none => { outcome := .error (.unregistered concern) }
    | some p =>
      let candidates := a.disk.candidates a.ignoredDirs root p.filter
      if candidates.isEmpty then
        { outcome := .ok (.notApplicable concern)
          log := [⟨.info, .audit, concern.name ++ ": no candidate files"⟩] }
      else
        let run := a.judge p callsBefore candidates
        { run with
          log := ⟨.info, .audit, concern.name ++ ": evaluating " ++ toString candidates.length ++
            " candidate file(s)"⟩ :: run.log }

/-- Judges concerns on a tree, up to the first that fails. -/
def runConcerns (a : Audit) (root : Path) : (callsBefore : Nat) → List Concern → Run (List Result)
  | _, [] => { outcome := .ok [] }
  | callsBefore, concern :: rest =>
    let first := a.runConcern callsBefore root concern
    match first.outcome with
    | .error fault => { outcome := .error fault, log := first.log, calls := first.calls }
    | .ok result =>
      let others := a.runConcerns root (callsBefore + first.calls.length) rest
      { outcome := others.outcome.map (result :: ·)
        log := first.log ++ others.log
        calls := first.calls ++ others.calls }

/-- Judges concerns on a tree and reports on them in that order. -/
def scan (a : Audit) (root : Path) (concerns : List Concern) : Run Report :=
  match a.checkRoot root with
  | .error fault => { outcome := .error fault }
  | .ok () =>
    let run := a.runConcerns root 0 concerns
    { outcome := match run.outcome with
        | .error fault => .error fault
        | .ok results =>
          match Report.ofResults results (some concerns) with
          | .ok report => .ok report
          | .error fault => .error (.report fault)
      log := run.log
      calls := run.calls }

end Audit
end SourceAudit
