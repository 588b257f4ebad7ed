import SourceAudit.Audit.Run
import SourceAudit.Proofs.Report.Assembly

/-!
# What an audit comes to

An audit that succeeds has succeeded at each step: at the root, at each candidate file, at the linter and at the
report. These lemmas say once what each step gives, so that later proofs need not open the runs again.

Results:
* `judge_eq_ok`, `runConcern_eq_ok`: a concern has a result exactly when its files can be evaluated and the linter
  does not break off.
* `results_of_scan`: a report holds one result for each concern asked for, in that order, each from a run of its own.
-/
namespace SourceAudit

open Disk (Candidate)
open Fallible

namespace Registry

theorem concern_of_find? {r : Registry} {concern : Concern} {p : Profile} (h : r.find? concern = some p) :
    p.concern = concern := by
  simpa using List.find?_some h

theorem find?_standard (linter : Option Linter) (concern : Concern) :
    (standard linter).find? concern = some (profileOf linter concern) := by
  cases concern <;> rfl

end Registry

namespace Audit

theorem checkRoot_eq_ok {a : Audit} {root : Path} : a.checkRoot root = .ok () ↔ a.disk.isDir root = true := by
  unfold checkRoot Disk.has Disk.isDir
  cases a.disk.find? root with
  | none => simp
  | some node => cases h : node.isDir <;> simp [h]

theorem judge_eq_ok {a : Audit} {p : Profile} {calls : Nat} {candidates : List Candidate} {result : Result} :
    (a.judge p calls candidates).outcome = .ok result ↔
      ∃ evaluations report failed, candidates.mapM (p.evaluate a.disk) = .ok evaluations ∧
        (a.lint p calls (candidates.zip evaluations)).outcome = .ok (report, failed) ∧
        result = p.resultOf (candidates.zip evaluations) report failed := by
  unfold judge
  cases hm : candidates.mapM (p.evaluate a.disk) with
  | error fault => simp
  | ok evaluations =>
    cases hl : (a.lint p calls (candidates.zip evaluations)).outcome with
    | error fault => simp [hl]
    | ok pair =>
      obtain ⟨report, failed⟩ := pair
      simp only [hl, Except.ok.injEq]
      constructor
      · intro h; exact ⟨_, _, _, rfl, ⟨hl, h.symm⟩⟩
      · rintro ⟨_, _, _, rfl, h, rfl⟩
        rw [hl] at h
        cases h
        rfl

theorem runConcern_eq_ok {a : Audit} {calls : Nat} {root : Path} {concern : Concern} {result : Result} :
    (a.runConcern calls root concern).outcome = .ok result ↔
      a.disk.isDir root = true ∧ ∃ p, a.registry.find? concern = some p ∧
        ((a.disk.candidates a.ignoredDirs root p.filter = [] ∧ result = .notApplicable concern) ∨
          (a.disk.candidates a.ignoredDirs root p.filter ≠ [] ∧
            (a.judge p calls (a.disk.candidates a.ignoredDirs root p.filter)).outcome = .ok result)) := by
  rw [← checkRoot_eq_ok (a := a)]
  unfold runConcern
  cases hr : a.checkRoot root with
  | error fault => simp
  | ok _ =>
    cases hp : a.registry.find? concern with
    | none => simp
    | some p =>
      cases hc : a.disk.candidates a.ignoredDirs root p.filter with
      | nil => simpa [hc] using eq_comm
      | cons c rest => simp [hc]

theorem concern_of_runConcern {a : Audit} {calls : Nat} {root : Path} {concern : Concern} {result : Result}
    (h : (a.runConcern calls root concern).outcome = .ok result) : result.concern = concern := by
  obtain ⟨-, p, hp, ⟨-, rfl⟩ | ⟨-, hj⟩⟩ := runConcern_eq_ok.1 h
  · rfl
  · obtain ⟨_, _, _, -, -, rfl⟩ := judge_eq_ok.1 hj
    exact Registry.concern_of_find? hp

theorem results_of_runConcerns {a : Audit} {root : Path} {concerns : List Concern} :
    ∀ {calls : Nat} {results : List Result}, (a.runConcerns root calls concerns).outcome = .ok results →
      results.map (·.concern) = concerns ∧
        ∀ result ∈ results, ∃ calls, (a.runConcern calls root result.concern).outcome = .ok result := by
  induction concerns with
  | nil => intro calls results h; cases h; exact ⟨rfl, by simp⟩
  | cons concern rest ih =>
    intro calls results h
    unfold runConcerns at h
    cases hf : (a.runConcern calls root concern).outcome with
    | error fault => simp [hf] at h
    | ok result =>
      simp only [hf] at h
      cases ho : (a.runConcerns root (calls + (a.runConcern calls root concern).calls.length) rest).outcome with
      | error fault => rw [ho] at h; cases h
      | ok others =>
        rw [ho] at h
        cases h
        obtain ⟨hmap, hruns⟩ := ih ho
        have hc := concern_of_runConcern hf
        refine ⟨by rw [List.map_cons, hmap, hc], ?_⟩
        intro r hr
        rcases List.mem_cons.1 hr with rfl | hr
        · exact ⟨calls, hc.symm ▸ hf⟩
        · exact hruns r hr

/-- A report holds one result for each concern asked for, in that order, each from a run of its own. -/
theorem results_of_scan {a : Audit} {root : Path} {concerns : List Concern} {report : Report}
    (h : (a.scan root concerns).outcome = .ok report) :
    report.requested = concerns ∧
      ∀ result ∈ report.results, ∃ calls, (a.runConcern calls root result.concern).outcome = .ok result := by
  unfold scan at h
  cases hr : a.checkRoot root with
  | error fault => rw [hr] at h; cases h
  | ok _ =>
    simp only [hr] at h
    cases hrun : (a.runConcerns root 0 concerns).outcome with
    | error fault => rw [hrun] at h; cases h
    | ok results =>
      simp only [hrun] at h
      cases hres : Report.ofResults results (some concerns) with
      | error fault => rw [hres] at h; cases h
      | ok r =>
        rw [hres] at h
        cases h
        obtain ⟨hmap, hruns⟩ := results_of_runConcerns hrun
        rw [← hmap] at hres
        rw [Report.requested, Report.results_ofResults hres]
        exact ⟨hmap, hruns⟩

end Audit
end SourceAudit
