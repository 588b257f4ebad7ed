import SourceAudit.Proofs.Audit.Outcome

/-!
# A clean verdict is earned

A report passes when no concern that was asked for failed or was left incomplete. The state of a concern is read
off its result field by field, and a result could be put together for which it misleads: one with findings that is
marked as not implemented has no subject. No audit gives such a result. What a result holds comes from files that
had to do with the concern, so a result is `Coherent`, and on coherent results the states mean what they say.

Results:
* `coherent_of_runConcern`: whatever the tree, the registry and the linter, the result of a concern is coherent.
* `state_eq_passed_iff`: a coherent result has passed exactly if it holds a passed check, no finding and no failed
  tool.
* `scan_isPass`: a report passes exactly if it holds no finding and no failed tool and each concern that was asked
  for has passed or has no subject.
-/
namespace SourceAudit

namespace Result

/-- What a result holds and how it is marked agree: verdicts come from files that had to do with the concern, and
these, like a linter that failed, from files to look at. -/
structure Coherent (r : Result) : Prop where
  implemented : r.findings ≠ [] ∨ r.passedChecks ≠ [] → r.implemented = true
  applicable : r.implemented = true ∨ r.toolFailed = true → r.applicable = true

theorem coherent_notApplicable (concern : Concern) : (notApplicable concern).Coherent where
  implemented h := by rcases h with h | h <;> exact absurd rfl h
  applicable h := by rcases h with h | h <;> cases h

theorem state_ne_notRun (r : Result) : r.state ≠ .notRun := by
  unfold state
  split
  · simp
  · split
    · simp
    · split <;> simp

theorem isClean_state_iff (r : Result) : r.state.isClean = true ↔ r.state = .passed ∨ r.state = .noSubject := by
  have hrun := r.state_ne_notRun
  cases h : r.state with
  | notRun => exact absurd h hrun
  | noSubject => simp [State.isClean]
  | incomplete => simp [State.isClean]
  | passed => simp [State.isClean]
  | failed => simp [State.isClean]

/-- A coherent result has passed exactly if it holds a passed check, no finding and no failed tool. -/
theorem state_eq_passed_iff {r : Result} (h : r.Coherent) :
    r.state = .passed ↔ r.passedChecks ≠ [] ∧ r.findings = [] ∧ r.toolFailed = false := by
  unfold state
  constructor
  · intro hs
    split at hs
    · cases hs
    · split at hs
      · cases hs
      · split at hs
        · next hp =>
          simp only [isPass, Bool.and_eq_true, Bool.not_eq_true', List.isEmpty_iff, List.isEmpty_eq_false_iff] at hp
          exact ⟨hp.1.2, hp.1.1.2, hp.2⟩
        · cases hs
  · rintro ⟨hc, hf, ht⟩
    have hi : r.implemented = true := h.implemented (.inr hc)
    have ha : r.applicable = true := h.applicable (.inl hi)
    simp [isPass, ht, hi, ha, hf, hc]

theorem clean_of_state {r : Result} (h : r.Coherent) (hs : r.state = .passed ∨ r.state = .noSubject) :
    r.findings = [] ∧ r.toolFailed = false := by
  rcases hs with hs | hs
  · exact ((state_eq_passed_iff h).1 hs).2
  · unfold state at hs
    split at hs
    · cases hs
    · next htool =>
      split at hs
      · next hsub =>
        -- Without a subject there can be no finding, so the first test has ruled out a failed tool.
        have hf : r.findings = [] := by
          by_contra hne
          have hi := h.implemented (.inl hne)
          simp [hi, h.applicable (.inl hi)] at hsub
        refine ⟨hf, ?_⟩
        simpa [hf] using htool
      · split at hs <;> cases hs

end Result

/-! ## Results of an audit -/

theorem Profile.coherent_resultOf (p : Profile) (files : List EvaluatedFile) (lint : LintReport) (failed : Bool) :
    (p.resultOf files lint failed).Coherent where
  implemented h := by
    simp only [resultOf, Outcome.combine, Bool.not_eq_true', List.isEmpty_eq_false_iff] at h ⊢
    intro hnone
    simp [hnone] at h
  applicable _ := rfl

namespace Audit

/-- Whatever the tree, the registry and the linter, the result of a concern is coherent. -/
theorem coherent_of_runConcern {a : Audit} {calls : Nat} {root : Path} {concern : Concern} {result : Result}
    (h : (a.runConcern calls root concern).outcome = .ok result) : result.Coherent := by
  obtain ⟨-, p, -, ⟨-, rfl⟩ | ⟨-, hj⟩⟩ := runConcern_eq_ok.1 h
  · exact Result.coherent_notApplicable concern
  · obtain ⟨_, report, failed, -, -, rfl⟩ := judge_eq_ok.1 hj
    exact p.coherent_resultOf _ report failed

theorem coherent_of_scan {a : Audit} {root : Path} {concerns : List Concern} {report : Report}
    (h : (a.scan root concerns).outcome = .ok report) : ∀ result ∈ report.results, result.Coherent := by
  intro result hmem
  obtain ⟨calls, hrun⟩ := (results_of_scan h).2 result hmem
  exact coherent_of_runConcern hrun

end Audit

namespace Report

theorem isPass_iff (r : Report) :
    r.isPass = true ↔ ∀ result ∈ r.results, result.state = .passed ∨ result.state = .noSubject := by
  simp only [isPass, requested, List.all_eq_true, List.mem_map, forall_exists_index, and_imp,
    forall_apply_eq_imp_iff₂]
  refine forall₂_congr fun result hmem => ?_
  rw [state_of_mem hmem, Result.isClean_state_iff]

theorem totalFindings_eq_zero_iff (r : Report) :
    r.totalFindings = 0 ↔ ∀ result ∈ r.results, result.findings = [] := by
  rw [totalFindings, findings, List.length_eq_zero_iff, List.flatMap_eq_nil_iff]

theorem forall_requested (r : Report) (P : State → Prop) :
    (∀ concern ∈ r.requested, P (r.state concern)) ↔ ∀ result ∈ r.results, P result.state := by
  simp only [requested, List.mem_map, forall_exists_index, and_imp, forall_apply_eq_imp_iff₂]
  exact forall₂_congr fun result hmem => by rw [state_of_mem hmem]

/-- A concern has passed exactly if its result has. -/
theorem state_eq_passed_iff (r : Report) (concern : Concern) :
    r.state concern = .passed ↔ ∃ result ∈ r.results, result.concern = concern ∧ result.state = .passed := by
  constructor
  · intro h
    unfold state at h
    cases hg : r.get? concern with
    | none => rw [hg] at h; cases h
    | some result =>
      rw [hg] at h
      exact ⟨result, List.mem_of_find?_eq_some hg, by simpa using List.find?_some hg, h⟩
  · rintro ⟨result, hmem, rfl, h⟩
    rw [state_of_mem hmem, h]

end Report

/-- **No false pass.** A report passes, and says so in the last line on a terminal, exactly if it holds no finding
and no failed tool and each concern that was asked for has passed or has no subject. A concern has passed exactly
if it has a result with at least one passed check, no finding and no failed tool. -/
theorem Audit.scan_isPass {a : Audit} {root : Path} {concerns : List Concern} {report : Report}
    (h : (a.scan root concerns).outcome = .ok report) :
    (report.isPass = true ↔
      report.totalFindings = 0 ∧ (∀ result ∈ report.results, result.toolFailed = false) ∧
        ∀ concern ∈ concerns, report.state concern = .passed ∨ report.state concern = .noSubject) ∧
    (∀ maxFindings, (report.terminalLines maxFindings).getLast? = some "Overall       : PASS" ↔
      report.isPass = true) ∧
    ∀ concern, report.state concern = .passed ↔
      ∃ result ∈ report.results, result.concern = concern ∧
        result.passedChecks ≠ [] ∧ result.findings = [] ∧ result.toolFailed = false := by
  have hco := coherent_of_scan h
  refine ⟨?_, ?_, ?_⟩
  · rw [← (results_of_scan h).1, report.forall_requested (fun s => s = .passed ∨ s = .noSubject),
      report.isPass_iff, report.totalFindings_eq_zero_iff]
    constructor
    · intro hs
      exact ⟨fun r hr => (Result.clean_of_state (hco r hr) (hs r hr)).1,
        fun r hr => (Result.clean_of_state (hco r hr) (hs r hr)).2, hs⟩
    · exact fun hs => hs.2.2
  · intro maxFindings
    rw [Report.getLast?_terminalLines]
    cases report.isPass <;> simp
  · intro concern
    rw [report.state_eq_passed_iff]
    constructor
    · rintro ⟨result, hmem, hc, hs⟩
      exact ⟨result, hmem, hc, (Result.state_eq_passed_iff (hco result hmem)).1 hs⟩
    · rintro ⟨result, hmem, hc, hs⟩
      exact ⟨result, hmem, hc, (Result.state_eq_passed_iff (hco result hmem)).2 hs⟩

/-! ## A report that passes -/

/-- A linter that finds nothing to say about any file. -/
def silentLinter : Linter where
  backend := {
    name := "eslint"
    run := fun _ paths => {
      entries := .ok (paths.map fun p => .object [("filePath", .string (.text p)), ("messages", .array [])])
      calls := [paths] } }

/-- A tree with a script that names its origin and a loader that is restricted. -/
def mitigatedTree : Disk where
  root := .dir [("r", .dir [
    ("server.js", .file (Text.Utf8.encode "cors(origin)".toList)),
    ("load.py", .file (Text.Utf8.encode "yaml.load(f, Loader=SafeLoader)".toList))])]

/-- The report on a tree whose risks are mitigated passes, on evidence in both concerns. -/
theorem Audit.scan_isPass_mitigatedTree :
    ∃ report, (({ registry := .standard (some silentLinter), disk := mitigatedTree } : Audit).scan ⟨"/", ["r"]⟩
        [.sanitization, .cors]).outcome = .ok report ∧
      report.isPass = true ∧ report.totalFindings = 0 ∧ report.state .cors = .passed ∧
      ∃ result ∈ report.results, result.concern = .sanitization ∧ result.passedChecks ≠ [] := by
  have hpass : ((({ registry := .standard (some silentLinter), disk := mitigatedTree } : Audit).scan ⟨"/", ["r"]⟩
      [.sanitization, .cors]).outcome.toOption.any fun r =>
        r.isPass && r.state .cors = .passed && r.state .sanitization = .passed) = true := by
    decide +kernel
  cases h : (({ registry := .standard (some silentLinter), disk := mitigatedTree } : Audit).scan ⟨"/", ["r"]⟩
      [.sanitization, .cors]).outcome with
  | error fault => rw [h] at hpass; cases hpass
  | ok report =>
    rw [h] at hpass
    simp only [Except.toOption, Option.any_some, Bool.and_eq_true, decide_eq_true_eq] at hpass
    obtain ⟨⟨hp, hc⟩, hs⟩ := hpass
    obtain ⟨hiff, -, hstate⟩ := Audit.scan_isPass h
    obtain ⟨result, hmem, hcon, hne, -⟩ := (hstate .sanitization).1 hs
    exact ⟨report, rfl, hp, (hiff.1 hp).1, hc, result, hmem, hcon, hne⟩

end SourceAudit
