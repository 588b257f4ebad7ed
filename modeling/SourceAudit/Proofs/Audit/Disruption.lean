import SourceAudit.Proofs.Audit.EntryOrder
import SourceAudit.Proofs.Linter.Breakage

/-!
# Output that aborts an audit

An audit goes on without a linter that is unusable. ESLint is unusable if it cannot be started, fails, or prints
something other than a list of objects. But there is output of the right outer form that is not caught and ends the
audit: a path that is no text or cannot be resolved, messages that are a number, a rule that is a list, an infinite
position, a number too long to read, or nesting that is too deep. Here the outputs that abort an audit are told apart
exactly from those that do not.

Results:
* `Audit.runConcern_outcome`: what a concern comes to is what its linting comes to.
* `Audit.linterOutput_aborts_iff`: an audit is aborted exactly by output with a disruption.
-/
namespace SourceAudit

open Disk (Candidate)
open Fallible

namespace Audit

variable {a : Audit} {p : Profile} {calls : Nat} {candidates : List Candidate}

theorem judge_outcome (hnamed : ∀ c ∈ candidates, c.relative ≠ "") :
    (a.judge p calls candidates).outcome =
      (a.lint p calls (p.evaluated a.disk candidates)).outcome.map fun x =>
        p.resultOf (p.evaluated a.disk candidates) x.1 x.2 := by
  unfold judge
  rw [mapM_evaluate hnamed]
  simp only [Profile.zip_fate]
  cases (a.lint p calls (p.evaluated a.disk candidates)).outcome <;> rfl

/-- What a concern with candidates comes to is what its linting comes to. -/
theorem runConcern_outcome {linter : Option Linter} {d : Disk} {ignored : List String} {root : Path}
    {concern : Concern} (hp : d.root.isProper = true) (hroot : d.isDir root = true) :
    let a : Audit := { registry := .standard linter, disk := d, ignoredDirs := ignored }
    let p := Registry.profileOf linter concern
    let candidates := d.candidates ignored root p.filter
    candidates ≠ [] → (a.runConcern calls root concern).outcome =
      (a.lint p calls (p.evaluated d candidates)).outcome.map fun x =>
        p.resultOf (p.evaluated d candidates) x.1 x.2 := by
  intro a p candidates hne
  have hjudge : (a.judge p calls candidates).outcome = _ := judge_outcome fun c hc => Disk.relative_ne_empty hp hc
  have hempty : candidates.isEmpty = false := List.isEmpty_eq_false_iff.2 hne
  unfold runConcern
  rw [checkRoot_eq_ok.2 hroot, Registry.find?_standard linter concern]
  simp only
  rw [if_neg (by rw [hempty]; exact Bool.false_ne_true)]
  exact hjudge

theorem lint_eq_error {l : Linter} (hl : p.linter = some l) (hne : p.delegatedFiles a.disk candidates ≠ [])
    {fault : AuditFault} :
    (a.lint p calls (p.evaluated a.disk candidates)).outcome = .error fault ↔
      ∃ reason, fault = .linter reason ∧
        (l.lint a.disk.resolve calls (p.delegatedFiles a.disk candidates)).report = .error (.broken reason) := by
  unfold lint
  rw [Profile.map_delegated_evaluated, hl]
  simp only [List.isEmpty_eq_false_iff.2 hne, Bool.false_eq_true, if_false]
  cases (l.lint a.disk.resolve calls (p.delegatedFiles a.disk candidates)).report with
  | ok report => simp
  | error fault =>
    cases fault with
    | unusable reason => simp
    | broken reason => simp [eq_comm]

/-- A concern whose files are left to a linter fails exactly if the linter breaks off, and then for its reason. -/
theorem runConcern_eq_error {l : Linter} {d : Disk} {ignored : List String} {root : Path} (hp : d.root.isProper = true)
    (hroot : d.isDir root = true) {fault : AuditFault} :
    let a : Audit := { registry := .standard (some l), disk := d, ignoredDirs := ignored }
    let p := Registry.profileOf (some l) .sanitization
    let files := p.delegatedFiles d (d.candidates ignored root p.filter)
    (a.runConcern calls root .sanitization).outcome = .error fault ↔
      files ≠ [] ∧ ∃ reason, fault = .linter reason ∧
        (l.lint d.resolve calls files).report = .error (.broken reason) := by
  intro a p files
  by_cases hcandidates : d.candidates ignored root p.filter = []
  · have hresult : (a.runConcern calls root .sanitization).outcome = .ok (.notApplicable .sanitization) :=
      runConcern_eq_ok.2 ⟨hroot, p, Registry.find?_standard _ _, .inl ⟨hcandidates, rfl⟩⟩
    have hfiles : files = [] := by simp [files, hcandidates, Profile.delegatedFiles]
    simp [hresult, hfiles]
  · have hrun : (a.runConcern calls root .sanitization).outcome = _ := runConcern_outcome hp hroot hcandidates
    have hmap : ∀ x : Except AuditFault (LintReport × Bool),
        x.map (fun y => p.resultOf (p.evaluated d (d.candidates ignored root p.filter)) y.1 y.2) = .error fault ↔
          x = .error fault := by
      intro x
      cases x <;> simp [Except.map]
    rw [hrun, hmap]
    by_cases hfiles : files = []
    · have hlint : a.lint p calls (p.evaluated d (d.candidates ignored root p.filter)) = _ :=
        lint_of_no_delegated hfiles
      rw [hlint]
      simp [hfiles]
    · rw [and_iff_right hfiles]
      exact lint_eq_error rfl hfiles

end Audit

/-- **Which output of ESLint aborts an audit.** Let ESLint's command not be empty and its processes end in any way. A
run of ESLint, the linting of files and the judging of a concern whose scripts are left to ESLint are broken off exactly
if the output has a disruption. Otherwise the run and the linting succeed or find ESLint unusable, and the concern has a
result. A concern fails in no other way. -/
theorem Audit.linterOutput_aborts_iff (given : Linter) (e : EsLint) (processes : Processes)
    (hcommand : e.command ≠ []) :
    let l : Linter := { given with backend := e.backend processes }
    (∀ calls paths reason, (e.run processes calls paths).entries = .error (.broken reason) ↔
      ((e.ends processes calls paths).find? fun x => (x.entries? e.limits).isNone).bind (·.breakage? e.limits) =
        some reason) ∧
    (∀ resolve calls files paths, files ≠ [] → (∀ f ∈ files, f.2 ≠ "") →
      files.mapM (fun f => resolve f.1) = .ok paths → ∀ reason,
        let requested := Linter.namesAt paths files
        (l.lint resolve calls files).report = .error (.broken reason) ↔
          e.disruption? l resolve requested (e.ends processes calls (requested.map (·.1))) = some reason) ∧
    ∀ (d : Disk) (ignored : List String) (root : Path) (calls : Nat),
      let p := Registry.profileOf (some l) .sanitization
      let files := p.delegatedFiles d (d.candidates ignored root p.filter)
      let a : Audit := { registry := .standard (some l), disk := d, ignoredDirs := ignored }
      let run := a.runConcern calls root .sanitization
      d.root.isProper = true → d.isDir root = true →
      ∃ paths, files.mapM (fun f => d.resolve f.1) = .ok paths ∧
        let requested := Linter.namesAt paths files
        let broken := e.disruption? l d.resolve requested (e.ends processes calls (requested.map (·.1)))
        ((∃ result, run.outcome = .ok result) ↔ broken = none) ∧
        ∀ fault, run.outcome = .error fault ↔ ∃ reason, fault = .linter reason ∧ broken = some reason := by
  intro l
  have hlint : ∀ resolve calls files paths, files ≠ [] → (∀ f ∈ files, f.2 ≠ "") →
      files.mapM (fun f => resolve f.1) = .ok paths → ∀ reason,
        let requested := Linter.namesAt paths files
        (l.lint resolve calls files).report = .error (.broken reason) ↔
          e.disruption? l resolve requested (e.ends processes calls (requested.map (·.1))) = some reason := by
    intro resolve calls files paths hne hnamed hpaths reason
    exact EsLint.lint_breaks hcommand rfl hne (Linter.requestedOf_eq hpaths) (Linter.name_ne_empty hnamed) reason
  refine ⟨EsLint.run_breaks hcommand, hlint, ?_⟩
  intro d ignored root calls p files a run hp hroot
  obtain ⟨paths, hpaths⟩ : ∃ paths, files.mapM (fun f => d.resolve f.1) = .ok paths :=
    exists_mapM (Profile.resolve_delegatedFiles hp _)
  refine ⟨paths, hpaths, ?_⟩
  intro requested broken
  have herror : ∀ fault, run.outcome = .error fault ↔ ∃ reason, fault = .linter reason ∧ broken = some reason := by
    intro fault
    have hrun : run.outcome = .error fault ↔ files ≠ [] ∧ ∃ reason, fault = .linter reason ∧
        (l.lint d.resolve calls files).report = .error (.broken reason) := runConcern_eq_error hp hroot
    rw [hrun]
    by_cases hfiles : files = []
    · have hnone : broken = none := by
        have hpaths' : paths = [] := by
          rw [hfiles] at hpaths
          exact (Except.ok.inj hpaths).symm
        simp only [broken, requested, hfiles, hpaths']
        exact congrArg _ (e.ends_nil processes calls)
      simp [hfiles, hnone]
    · rw [and_iff_right hfiles]
      exact exists_congr fun reason => and_congr_right fun _ =>
        hlint d.resolve calls files paths hfiles (p.names_delegatedFiles hp ignored root p.filter).2 hpaths reason
  refine ⟨?_, herror⟩
  cases hrun : run.outcome with
  | ok result =>
    have hnone : broken = none := by
      by_contra hsome
      obtain ⟨reason, hreason⟩ := Option.ne_none_iff_exists'.1 hsome
      rw [(herror _).2 ⟨reason, rfl, hreason⟩] at hrun
      cases hrun
    simp [hnone]
  | error fault =>
    obtain ⟨reason, -, hreason⟩ := (herror fault).1 hrun
    simp [hreason]

/-! ## Output that is borne and output that is not -/

/-- The default linter, with processes that all print one text. -/
def printing (stdout : String) : Linter where
  backend := EsLint.backend {} fun _ _ => .exited 1 stdout ""

/-- Odd output: messages that are no objects, a rule that is a number, positions that are no numbers, an infinite
position for a rule that does not count, and an entry without a path. -/
def oddOutput : String :=
  "[\x7b\"filePath\": \"/r/a.js\", \"messages\": [7, \x7b\"ruleId\": 5\x7d, " ++
  "\x7b\"ruleId\": \"semi\", \"line\": Infinity\x7d, " ++
  "\x7b\"ruleId\": \"no-eval\", \"line\": \"first\", \"column\": NaN\x7d]\x7d, \x7b\"messages\": true\x7d]"

/-- Odd output does not abort the audit of a tree of scripts. -/
theorem Audit.linterOutput_aborts_iff_oddOutput :
    ∃ result, (runConcern { registry := .standard (some (printing oddOutput)), disk := scripts } 0 ⟨"/", ["r"]⟩
      .sanitization).outcome = .ok result := by
  obtain ⟨-, -, hrun⟩ := Audit.linterOutput_aborts_iff (printing oddOutput) {} (fun _ _ => .exited 1 oddOutput "")
    (by decide)
  obtain ⟨paths, hpaths, hresult, -⟩ := hrun scripts defaultIgnoredDirs ⟨"/", ["r"]⟩ 0 (by decide +kernel)
    (by decide +kernel)
  have hplaces : paths = scriptFiles.map (·.1) := by
    have hresolved : scriptFiles.mapM (fun f => scripts.resolve f.1) = .ok (scriptFiles.map (·.1)) := by decide +kernel
    exact Except.ok.inj (hpaths.symm.trans hresolved)
  refine hresult.2 ?_
  rw [hplaces]
  exact Option.isNone_iff_eq_none.1 (by decide +kernel)

/-- An infinite position, a path that is a number, a path that no file can have, messages that are a yes and a rule that
is a list each abort the audit of a tree of scripts. -/
theorem Audit.infinite_position_aborts :
    let message := fun stdout => (fault? (runConcern { registry := .standard (some (printing stdout)), disk := scripts }
      0 ⟨"/", ["r"]⟩ .sanitization).outcome).map (·.message)
    message "[\x7b\"filePath\": \"/r/a.js\", \"messages\": [\x7b\"ruleId\": \"no-eval\", \"line\": Infinity\x7d]\x7d]" =
      some "cannot convert float infinity to integer" ∧
    message "[\x7b\"filePath\": 7\x7d]" = some "expected str, bytes or os.PathLike object, not int" ∧
    message "[\x7b\"filePath\": \"/r/\\ud800.js\", \"messages\": []\x7d]" =
      some "'utf-8' codec can't encode character '\\ud800' in position 3: surrogates not allowed" ∧
    message "[\x7b\"filePath\": \"/r/a.js\", \"messages\": true\x7d]" = some "'bool' object is not iterable" ∧
    message "[\x7b\"filePath\": \"/r/a.js\", \"messages\": [\x7b\"ruleId\": [\"no-eval\"]\x7d]\x7d]" =
      some "unhashable type: 'list'" := by
  decide +kernel

end SourceAudit
