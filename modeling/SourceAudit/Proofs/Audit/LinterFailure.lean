import SourceAudit.Proofs.Audit.Accounting
import SourceAudit.Proofs.Audit.Verdict

/-!
# A linter that fails

An audit goes on without a linter that is unusable. Compare two runs on one tree that differ in the answers of the
linter alone, one in which it is unusable and one in which it answers: all that the first lacks are the entries on
files that were left to the linter. It says that it lacks them, and never reads as a pass.

Results:
* `Result.state_of_toolFailed`: a failed tool leaves a concern incomplete, or failed if there are findings.
* `linterFailure_confined`: the two runs agree on everything that the linter has no part in.
-/
namespace SourceAudit

open Disk (Candidate)
open Fallible

/-- The same linter with other answers. -/
def Linter.withRun (l : Linter) (run : Nat → List String → Answer) : Linter :=
  { l with backend := { l.backend with run } }

/-- A failed tool leaves a concern incomplete, or failed if there are findings. -/
theorem Result.state_of_toolFailed {r : Result} (h : r.Coherent) (ht : r.toolFailed = true) :
    r.state = if r.findings = [] then .incomplete else .failed := by
  unfold state
  by_cases hf : r.findings = []
  · simp [ht, hf]
  · have hi : r.implemented = true := h.implemented (.inl hf)
    have ha : r.applicable = true := h.applicable (.inl hi)
    simp [isPass, hf, hi, ha]

namespace Profile

variable {p : Profile} {d : Disk} {candidates : List Candidate}

theorem linterName_mem_evaluatedNames {l : Linter} (hl : p.linter = some l) (ran : List String) :
    l.name ∈ p.evaluatedNames ran ↔ l.name ∈ ran := by
  unfold evaluatedNames
  rw [hl]
  constructor
  · intro h
    rcases List.mem_append.1 h with h | h <;> simpa using (List.mem_filter.1 h).2
  · intro h
    exact List.mem_append_right _ (List.mem_filter.2 ⟨by simp, by simpa using h⟩)

/-- Without outcomes of the linter, its name is among what was evaluated only as the name of a rule that judged a
file. -/
theorem linterName_mem_rulesEvaluated {l : Linter} (hl : p.linter = some l)
    (hnamed : ∀ c ∈ candidates, c.relative ≠ "") (notes : List String) (failed : Bool) :
    l.name ∈ (p.resultOf (p.evaluated d candidates) { notes } failed).rulesEvaluated ↔
      ∃ c ∈ candidates, ∃ names outcome, p.evaluate d c = .ok (.judged names outcome) ∧ l.name ∈ names := by
  simp only [resultOf, linterName_mem_evaluatedNames hl, evaluated, List.filterMap_map, List.mem_flatMap,
    List.mem_filterMap]
  constructor
  · rintro ⟨⟨names, outcome⟩, ⟨c, hc, hcon⟩, hmem⟩
    refine ⟨c, hc, names, outcome, ?_, hmem⟩
    rw [evaluate_eq_ok (hnamed c hc)]
    cases hfate : p.fate d c with
    | judged names' outcome' =>
      simp only [Function.comp_apply, EvaluatedFile.contribution, hfate, Option.some.injEq] at hcon
      cases hcon
      rfl
    | _ => simp [EvaluatedFile.contribution, hfate] at hcon
  · rintro ⟨c, hc, names, outcome, heval, hmem⟩
    rw [evaluate_eq_ok (hnamed c hc)] at heval
    have hfate : p.fate d c = .judged names outcome := Except.ok.inj heval
    exact ⟨(names, outcome), ⟨c, hc, by simp [EvaluatedFile.contribution, hfate]⟩, hmem⟩

/-- Two results on the same candidates, from the same linter with different answers: without outcomes of the linter
there is what there is with them, apart from the files left to it. -/
theorem outcome_resultOf_withRun {l : Linter} (run run' : Nat → List String → Answer) (notes : List String)
    {report : LintReport} (hon : ∀ x ∈ report.outcomes, x.2.On x.1)
    (hlang : ∀ c ∈ candidates, Language.ofPath? (.ofString c.relative) = Language.ofPath? c.path)
    (failed failed' : Bool) :
    let q := fun answer => Registry.profileOf (some (l.withRun answer)) .sanitization
    let failing := (q run).resultOf ((q run).evaluated d candidates) { notes } failed
    let other := (q run').resultOf ((q run').evaluated d candidates) report failed'
    (⟨failing.findings, failing.passedChecks⟩ : Outcome) =
      (⟨other.findings, other.passedChecks⟩ : Outcome).restrict
        (fun file => !l.handles (Language.ofPath? (.ofString file))) := by
  intro q failing other
  have hdelegates : ∀ language, (q run').delegates language = l.handles language := fun _ => rfl
  have hrestrict := @restrict_resultOf (q run') d report hon candidates hlang failed'
  simp only [hdelegates] at hrestrict
  exact (outcome_resultOf candidates { notes } failed).trans hrestrict.symm

end Profile

namespace Audit

variable {a : Audit} {p : Profile} {calls : Nat} {candidates : List Candidate}

theorem judge_of_no_delegated (hnamed : ∀ c ∈ candidates, c.relative ≠ "")
    (h : p.delegatedFiles a.disk candidates = []) :
    a.judge p calls candidates =
      let files := p.evaluated a.disk candidates
      let result := p.resultOf files {} false
      { outcome := .ok result
        log := files.flatMap (fun f => p.logOf a.disk f.1 f.2) ++ skippedLog p.concern result.skippedFiles } := by
  unfold judge
  rw [mapM_evaluate hnamed]
  simp only [Profile.zip_fate, lint_of_no_delegated h, List.append_nil]

/-- Without files for the linter its answers make no difference, and it is not called. -/
theorem runConcern_of_no_delegated {d : Disk} {ignored : List String} {root : Path} {l : Linter}
    (hp : d.root.isProper = true) (hroot : d.isDir root = true) (run run' : Nat → List String → Answer) :
    let p := Registry.profileOf (some l) .sanitization
    let of := fun answer => runConcern
      { registry := .standard (some (l.withRun answer)), disk := d, ignoredDirs := ignored } calls root .sanitization
    p.delegatedFiles d (d.candidates ignored root p.filter) = [] → of run = of run' ∧ (of run).calls = [] := by
  intro p of h
  let q := fun answer => Registry.profileOf (some (l.withRun answer)) .sanitization
  let files := p.evaluated d (d.candidates ignored root p.filter)
  let result := p.resultOf files {} false
  have hjudge : ∀ answer, judge { registry := .standard (some (l.withRun answer)), disk := d, ignoredDirs := ignored }
      (q answer) calls (d.candidates ignored root (q answer).filter) =
        { outcome := .ok result
          log := files.flatMap (fun f => p.logOf d f.1 f.2) ++ skippedLog p.concern result.skippedFiles } :=
    fun answer => judge_of_no_delegated (fun c hc => Disk.relative_ne_empty hp hc) h
  have hok : ∀ answer, checkRoot { registry := .standard (some (l.withRun answer)), disk := d, ignoredDirs := ignored }
      root = .ok () := fun answer => checkRoot_eq_ok.2 hroot
  simp only [of, runConcern, hok, Registry.find?_standard]
  change (if (d.candidates ignored root p.filter).isEmpty then _ else _) =
      (if (d.candidates ignored root p.filter).isEmpty then _ else _) ∧
    (if (d.candidates ignored root p.filter).isEmpty then _ else _ : Run Result).calls = []
  split
  · exact ⟨rfl, rfl⟩
  · simp only [q] at hjudge
    rw [hjudge run, hjudge run']
    exact ⟨rfl, rfl⟩

theorem exists_result_of_no_delegated {d : Disk} {ignored : List String} {root : Path} {l : Linter}
    (hp : d.root.isProper = true) (hroot : d.isDir root = true) (run : Nat → List String → Answer) :
    let q := Registry.profileOf (some (l.withRun run)) .sanitization
    let a : Audit := { registry := .standard (some (l.withRun run)), disk := d, ignoredDirs := ignored }
    q.delegatedFiles d (d.candidates ignored root q.filter) = [] →
    ∃ result, (a.runConcern calls root .sanitization).outcome = .ok result ∧
      (⟨result.findings, result.passedChecks⟩ : Outcome) =
        (⟨result.findings, result.passedChecks⟩ : Outcome).restrict
          (fun file => !l.handles (Language.ofPath? (.ofString file))) := by
  intro q a hdel
  by_cases hne : d.candidates ignored root q.filter = []
  · have hrun : (a.runConcern calls root .sanitization).outcome = .ok (.notApplicable .sanitization) :=
      runConcern_eq_ok.2 ⟨hroot, q, Registry.find?_standard _ _, .inl ⟨hne, rfl⟩⟩
    exact ⟨_, hrun, rfl⟩
  · have hlint : (a.lint q calls (q.evaluated d (d.candidates ignored root q.filter))).outcome = .ok ({}, false) := by
      rw [lint_of_no_delegated hdel]
    refine ⟨_, runConcern_of_lint hp hne hlint, ?_⟩
    exact Profile.outcome_resultOf_withRun run run [] (by simp) (fun c hc => Disk.language_relative hp hc) false false

end Audit

/-- **A linter that fails costs its own files only.** Compare two runs on one tree that differ in the answers of the
linter alone. Where it is unusable the run holds what the other holds on files that the linter does not handle, and
counts the same files. If there was a file for the linter, the run says so and is incomplete, or failed if there are
findings; the linter is not among what was evaluated, unless a rule of the same name judged a file. If there was none,
the linter is not called and the runs are the same. -/
theorem Audit.linterFailure_confined (l : Linter) (fails answers : Nat → List String → Answer) (reason : Unusable)
    (d : Disk) (ignored : List String) (calls : Nat) (root : Path) (hp : d.root.isProper = true)
    (hroot : d.isDir root = true) :
    let p := Registry.profileOf (some l) .sanitization
    let candidates := d.candidates ignored root p.filter
    let delegated := p.delegatedFiles d candidates
    let run := fun answer => runConcern
      { registry := .standard (some (l.withRun answer)), disk := d, ignoredDirs := ignored } calls root .sanitization
    (l.withRun fails).Fails d.resolve calls delegated reason →
    (l.withRun answers).Answers d.resolve calls delegated →
    ∃ failing other, (run fails).outcome = .ok failing ∧ (run answers).outcome = .ok other ∧
      failing.findings = other.findings.filter (fun f => !l.handles (Language.ofPath? (.ofString f.file))) ∧
      failing.passedChecks = other.passedChecks.filter (fun k => !l.handles (Language.ofPath? (.ofString k.file))) ∧
      failing.filesScanned = other.filesScanned ∧ failing.skippedFiles = other.skippedFiles ∧
      (delegated ≠ [] →
        failing.toolFailed = true ∧ failing.notes = [l.name ++ " unavailable: " ++ reason.message] ∧
        (l.name ∈ failing.rulesEvaluated ↔
          ∃ c ∈ candidates, ∃ names outcome, p.evaluate d c = .ok (.judged names outcome) ∧ l.name ∈ names) ∧
        failing.state = if failing.findings = [] then .incomplete else .failed) ∧
      (delegated = [] → run fails = run answers ∧ (run fails).calls = []) := by
  intro p candidates delegated run hfails hanswers
  let q := fun answer => Registry.profileOf (some (l.withRun answer)) .sanitization
  by_cases hdel : delegated = []
  · have hsame : run fails = run answers ∧ (run fails).calls = [] :=
      runConcern_of_no_delegated hp hroot fails answers hdel
    obtain ⟨result, hrun, hout⟩ := @exists_result_of_no_delegated calls d ignored root l hp hroot answers hdel
    obtain ⟨hf, hk⟩ := Outcome.mk.inj hout
    exact ⟨result, result, hsame.1 ▸ hrun, hrun, hf, hk, rfl, rfl, fun h => absurd hdel h, fun _ => hsame⟩
  · have hne : candidates ≠ [] := fun h => hdel (by simp only [delegated, h]; rfl)
    obtain ⟨report, hreport, hon⟩ : ∃ report, (q answers).lintReport d calls delegated = .ok report ∧
        ∀ x ∈ report.outcomes, x.2.On x.1 := Profile.lintReport_of_answers hp fun l' hl' => by
      cases hl'
      exact hanswers
    have hfail : ((l.withRun fails).lint d.resolve calls delegated).report = .error (.unusable reason) :=
      Linter.report_of_fails hdel (Profile.resolve_delegatedFiles hp candidates) hfails
    have hlang : ∀ c ∈ candidates, Language.ofPath? (.ofString c.relative) = Language.ofPath? c.path :=
      fun c hc => Disk.language_relative hp hc
    let note : LintReport := { notes := [l.name ++ " unavailable: " ++ reason.message] }
    let failing := (q fails).resultOf ((q fails).evaluated d candidates) note true
    let other := (q answers).resultOf ((q answers).evaluated d candidates) report false
    have hrunf : (run fails).outcome = .ok failing :=
      runConcern_of_lint hp hne (lint_of_unusable (l := l.withRun fails) rfl hdel hfail)
    have hruno : (run answers).outcome = .ok other := runConcern_of_lint hp hne (lint_of_report hreport)
    obtain ⟨hf, hk⟩ := Outcome.mk.inj (Profile.outcome_resultOf_withRun fails answers note.notes hon hlang true false)
    refine ⟨failing, other, hrunf, hruno, hf, hk, ?_, ?_, fun _ => ⟨rfl, rfl, ?_, ?_⟩, fun h => absurd h hdel⟩
    · exact (Profile.filesScanned_resultOf ..).trans (Profile.filesScanned_resultOf ..).symm
    · exact (Profile.skippedFiles_resultOf ..).trans (Profile.skippedFiles_resultOf ..).symm
    · exact Profile.linterName_mem_rulesEvaluated (p := q fails) rfl (fun c hc => Disk.relative_ne_empty hp hc) _ true
    · exact Result.state_of_toolFailed (coherent_of_runConcern hrunf) rfl

/-! ## On the tree of all kinds of files -/

def outOfOrder : Nat → List String → Answer := fun _ paths =>
  { entries := .error (.unusable (.reported "out of order")), calls := [paths] }

/-- The run in which the linter is out of order lacks what the linter found in the script, keeps what the rules found
and says that the linter was missing. -/
theorem Audit.linterFailure_confined_mixedTree :
    let p := Registry.profileOf (some alarmLinter) .sanitization
    let candidates := mixedTree.candidates defaultIgnoredDirs ⟨"/", ["r"]⟩ p.filter
    let run := fun answer => runConcern
      { registry := .standard (some (alarmLinter.withRun answer)), disk := mixedTree } 0 ⟨"/", ["r"]⟩ .sanitization
    mixedTree.root.isProper = true ∧ mixedTree.isDir ⟨"/", ["r"]⟩ = true ∧
      p.delegatedFiles mixedTree candidates = [(⟨"/", ["r", "app.js"]⟩, "app.js")] ∧
      ∃ failing other, (run outOfOrder).outcome = .ok failing ∧ (run alarmLinter.backend.run).outcome = .ok other ∧
        other.findings.map (·.file) = ["app.js", "run.py", "run.py", "run.py"] ∧
        failing.findings =
          other.findings.filter (fun f => !alarmLinter.handles (Language.ofPath? (.ofString f.file))) ∧
        failing.findings.map (·.file) = ["run.py", "run.py", "run.py"] ∧
        failing.notes = ["eslint unavailable: out of order"] ∧ failing.state = .failed := by
  intro p candidates run
  have hproper : mixedTree.root.isProper = true := by decide +kernel
  have hroot : mixedTree.isDir ⟨"/", ["r"]⟩ = true := by decide +kernel
  have hdelegated : p.delegatedFiles mixedTree candidates = [(⟨"/", ["r", "app.js"]⟩, "app.js")] := by decide +kernel
  have hfound : (run alarmLinter.backend.run).outcome.toOption.map (·.findings.map (·.file)) =
      some ["app.js", "run.py", "run.py", "run.py"] := by decide +kernel
  have hkept : (run outOfOrder).outcome.toOption.map (·.findings.map (·.file)) =
      some ["run.py", "run.py", "run.py"] := by decide +kernel
  obtain ⟨failing, other, hfailing, hother, hfilter, -, -, -, hmissing, -⟩ :=
    Audit.linterFailure_confined alarmLinter outOfOrder alarmLinter.backend.run (.reported "out of order") mixedTree
      defaultIgnoredDirs 0 ⟨"/", ["r"]⟩ hproper hroot (fun _ _ => rfl) (hdelegated ▸ answers_alarmLinter)
  obtain ⟨-, hnotes, -, hstate⟩ := hmissing (fun h => by rw [hdelegated] at h; cases h)
  have hfailed : failing.findings.map (·.file) = ["run.py", "run.py", "run.py"] := by
    rw [hfailing] at hkept
    exact Option.some.inj hkept
  have hne : failing.findings ≠ [] := fun h => by rw [h] at hfailed; cases hfailed
  refine ⟨hproper, hroot, hdelegated, failing, other, hfailing, hother, ?_, hfilter, hfailed, hnotes, ?_⟩
  · rw [hother] at hfound
    exact Option.some.inj hfound
  · rw [hstate, if_neg hne]

/-- The linter under the name of a rule for Python. -/
def namesakeLinter : Linter where
  backend := { name := "python_dynamic_eval", run := outOfOrder }

/-- A linter that fails, and bears the name of a rule that judged a file, is among what was evaluated all the same. -/
theorem Audit.namesake_evaluated :
    let p := Registry.profileOf (some namesakeLinter) .sanitization
    let candidates := mixedTree.candidates defaultIgnoredDirs ⟨"/", ["r"]⟩ p.filter
    p.delegatedFiles mixedTree candidates ≠ [] ∧
      namesakeLinter.Fails mixedTree.resolve 0 (p.delegatedFiles mixedTree candidates) (.reported "out of order") ∧
      ∃ failing, (runConcern { registry := .standard (some namesakeLinter), disk := mixedTree } 0 ⟨"/", ["r"]⟩
          .sanitization).outcome = .ok failing ∧
        failing.toolFailed = true ∧ namesakeLinter.name ∈ failing.rulesEvaluated := by
  intro p candidates
  have hdelegated : p.delegatedFiles mixedTree candidates = [(⟨"/", ["r", "app.js"]⟩, "app.js")] := by decide +kernel
  have hrun : ((runConcern { registry := .standard (some namesakeLinter), disk := mixedTree } 0 ⟨"/", ["r"]⟩
      .sanitization).outcome.toOption.any fun r =>
        r.toolFailed && r.rulesEvaluated.contains "python_dynamic_eval") = true := by decide +kernel
  refine ⟨fun h => ?_, fun _ _ => rfl, ?_⟩
  · rw [hdelegated] at h
    cases h
  · cases h : (runConcern { registry := .standard (some namesakeLinter), disk := mixedTree } 0 ⟨"/", ["r"]⟩
        .sanitization).outcome with
    | error fault => rw [h] at hrun; cases hrun
    | ok failing =>
      rw [h] at hrun
      simp only [Except.toOption, Option.any_some, Bool.and_eq_true, List.contains_iff_mem] at hrun
      exact ⟨failing, rfl, hrun⟩

end SourceAudit
