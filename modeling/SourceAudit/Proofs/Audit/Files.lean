import Mathlib.Data.List.Basic
import SourceAudit.Proofs.Audit.Outcome
import SourceAudit.Proofs.Disk.Candidates
import SourceAudit.Proofs.Linter.Answer

/-!
# Files of an audit

What becomes of a candidate is settled by the candidate alone: it is readable or not, its language is left to the
linter or not, and its text has to do with the concern or not. The result of a concern is the candidates' own
outcomes, one after another, and the linter adds to those of delegated files only.

Results:
* `Profile.evaluate_eq_ok`: evaluating a named candidate succeeds and gives its `fate`.
* `Profile.outcome_resultOf`: a result holds the outcomes of the candidates in their order.
* `Profile.restrict_outcomeOf`: apart from the files left to the linter, what the linter says makes no difference.
* `Audit.lint_of_report`, `Audit.lint_of_unusable`: what linting comes to if the linter answers, and if it is unusable.
-/
namespace SourceAudit

open Disk (Candidate)
open Fallible

/-- Whether a candidate is a file that is not too large and holds no zero byte. -/
def Disk.Candidate.isReadable (d : Disk) (c : Candidate) : Bool :=
  match d.find? c.path with
  | some (.file bytes) => decide (bytes.length ≤ 1000000) && !bytes.contains 0
  | _ => false

theorem Disk.Candidate.isSome_text? (d : Disk) (c : Candidate) :
    (SourceText.read d c.path).text?.isSome = c.isReadable d := by
  unfold isReadable
  cases hfind : d.find? c.path with
  | none => rw [SourceText.text?_of_find?_eq_none hfind]; rfl
  | some node =>
    rw [SourceText.read_of_find? hfind]
    cases node with
    | dir | link => rfl
    | locked size =>
      simp only [SourceText.ofNode]
      split <;> rfl
    | file bytes =>
      simp only [SourceText.ofNode, SourceText.ofBytes]
      by_cases hsize : bytes.length ≤ 1000000
      · have hlarge : ¬ bytes.length > maxFileSize := Nat.not_lt.2 hsize
        cases hz : bytes.contains 0 <;> simp [hsize, hlarge, SourceText.text?]
      · have hlarge : bytes.length > maxFileSize := Nat.lt_of_not_le hsize
        simp [hsize, hlarge, SourceText.text?]

/-! ## Outcomes -/

namespace Outcome

structure On (o : Outcome) (file : String) : Prop where
  findings : ∀ f ∈ o.findings, f.file = file
  passedChecks : ∀ k ∈ o.passedChecks, k.file = file

theorem Belongs.on {o : Outcome} {file rule : String} {concern : Concern} (h : o.Belongs file rule concern) :
    o.On file :=
  ⟨fun f hf => (h.findings f hf).1, fun k hk => (h.passedChecks k hk).1⟩

theorem on_empty (file : String) : ({} : Outcome).On file := ⟨by simp, by simp⟩

theorem on_combine {outcomes : List Outcome} {file : String} (h : ∀ o ∈ outcomes, o.On file) :
    (combine outcomes).On file := by
  constructor
  · intro f hf
    obtain ⟨o, ho, hf⟩ := List.mem_flatMap.1 hf
    exact (h o ho).findings f hf
  · intro k hk
    obtain ⟨o, ho, hk⟩ := List.mem_flatMap.1 hk
    exact (h o ho).passedChecks k hk

theorem combine_filterMap {α : Type} (g : α → Option Outcome) (xs : List α) :
    combine (xs.filterMap g) = combine (xs.map fun x => (g x).getD {}) := by
  induction xs with
  | nil => rfl
  | cons x rest ih =>
    obtain ⟨hf, hp⟩ := Outcome.mk.inj ih
    cases hg : g x <;> simp [combine, hg, hf, hp]

/-- The entries of an outcome on files of some kind. -/
def restrict (keep : String → Bool) (o : Outcome) : Outcome :=
  ⟨o.findings.filter fun f => keep f.file, o.passedChecks.filter fun k => keep k.file⟩

theorem restrict_combine (keep : String → Bool) (outcomes : List Outcome) :
    (combine outcomes).restrict keep = combine (outcomes.map (restrict keep)) := by
  simp [restrict, combine, List.filter_flatMap, List.flatMap_map]

theorem On.restrict_eq {o : Outcome} {file : String} (h : o.On file) (keep : String → Bool) :
    o.restrict keep = if keep file then o else {} := by
  unfold restrict
  cases hk : keep file with
  | true =>
    rw [List.filter_eq_self.2 fun f hf => by rw [h.findings f hf, hk],
      List.filter_eq_self.2 fun k hm => by rw [h.passedChecks k hm, hk]]
    rfl
  | false =>
    rw [List.filter_eq_nil_iff.2 fun f hf => by simp [h.findings f hf, hk],
      List.filter_eq_nil_iff.2 fun k hm => by simp [h.passedChecks k hm, hk]]
    rfl

end Outcome

/-! ## Single files -/

namespace Profile

variable {p : Profile} {d : Disk} {c : Candidate}

/-- What becomes of a named candidate. -/
def fate (p : Profile) (d : Disk) (c : Candidate) : Evaluation :=
  match (SourceText.read d c.path).text? with
  | none => .skipped
  | some text =>
    let rules := p.rulesFor (Language.ofPath? c.path)
    if p.delegates (Language.ofPath? c.path) then .delegated
    else if rules.isEmpty || !p.observes rules text then .outside
    else .judged (rules.map (·.name)) (Outcome.combine (rules.map (·.verdict c.relative text)))

/-- Evaluating a named candidate succeeds and gives its fate. -/
theorem evaluate_eq_ok (hc : c.relative ≠ "") : p.evaluate d c = .ok (p.fate d c) := by
  unfold evaluate fate
  cases (SourceText.read d c.path).text? with
  | none => rfl
  | some text =>
    simp only [evaluateText]
    split
    · rfl
    · split
      · rfl
      · rw [Rule.evaluateAll_eq_ok _ text hc]
        rfl

theorem fate_eq_skipped_iff : p.fate d c = .skipped ↔ c.isReadable d = false := by
  rw [← c.isSome_text? d]
  unfold fate
  cases (SourceText.read d c.path).text? with
  | none => simp
  | some text =>
    simp only
    split
    · simp
    · split <;> simp

theorem fate_eq_delegated_iff :
    p.fate d c = .delegated ↔ c.isReadable d = true ∧ p.delegates (Language.ofPath? c.path) = true := by
  rw [← c.isSome_text? d]
  unfold fate
  cases (SourceText.read d c.path).text? with
  | none => simp
  | some text =>
    simp only
    split
    · next h => simp [h]
    · next h => split <;> simp [h]

theorem isSkipped_fate : EvaluatedFile.isSkipped (c, p.fate d c) = !c.isReadable d := by
  rw [Bool.eq_iff_iff]
  simp [EvaluatedFile.isSkipped, fate_eq_skipped_iff]

theorem isDelegated_fate : EvaluatedFile.isDelegated (c, p.fate d c) =
    (c.isReadable d && p.delegates (Language.ofPath? c.path)) := by
  rw [Bool.eq_iff_iff]
  simp [EvaluatedFile.isDelegated, fate_eq_delegated_iff]

/-- What a candidate contributes, given what the linter said about the files left to it. -/
def outcomeOf (p : Profile) (d : Disk) (linted : List (String × Outcome)) (c : Candidate) : Outcome :=
  match p.fate d c with
  | .judged _ outcome => outcome
  | .delegated => (linted.lookup c.relative).getD {}
  | _ => {}

theorem of_fate_eq_judged {names : List String} {outcome : Outcome} (h : p.fate d c = .judged names outcome) :
    p.delegates (Language.ofPath? c.path) = false ∧ names = (p.rulesFor (Language.ofPath? c.path)).map (·.name) ∧
      ∃ text, outcome =
        Outcome.combine ((p.rulesFor (Language.ofPath? c.path)).map (·.verdict c.relative text)) := by
  unfold fate at h
  split at h
  · cases h
  · next text _ =>
    simp only at h
    split at h
    · cases h
    · next hlocal =>
      split at h
      · cases h
      · cases h
        exact ⟨by simpa using hlocal, rfl, text, rfl⟩

theorem on_outcomeOf {linted : List (String × Outcome)} (h : ∀ x ∈ linted, x.2.On x.1) :
    (p.outcomeOf d linted c).On c.relative := by
  unfold outcomeOf
  split
  · next hfate =>
    obtain ⟨-, -, text, rfl⟩ := of_fate_eq_judged hfate
    refine Outcome.on_combine fun o ho => ?_
    obtain ⟨r, -, rfl⟩ := List.mem_map.1 ho
    exact (r.belongs_verdict c.relative text).on
  · cases hl : linted.lookup c.relative with
    | none => exact Outcome.on_empty _
    | some o =>
      obtain ⟨pre, post, rfl, -⟩ := List.lookup_eq_some_iff.1 hl
      exact h (c.relative, o) (by simp)
  · exact Outcome.on_empty _

/-- Apart from the files left to the linter, what the linter says makes no difference. -/
theorem restrict_outcomeOf {linted : List (String × Outcome)} (h : ∀ x ∈ linted, x.2.On x.1)
    (hlang : Language.ofPath? (.ofString c.relative) = Language.ofPath? c.path) :
    (p.outcomeOf d linted c).restrict (fun file => !p.delegates (Language.ofPath? (.ofString file))) =
      p.outcomeOf d [] c := by
  rw [(on_outcomeOf h).restrict_eq, hlang]
  unfold outcomeOf
  cases hfate : p.fate d c with
  | skipped => simp
  | outside => simp
  | delegated => simp [(fate_eq_delegated_iff.1 hfate).2]
  | judged names outcome => simp [(of_fate_eq_judged hfate).1]

/-! ## Results -/

/-- The candidates that can be read and are left to the linter, by path and by name in the tree. -/
def delegatedFiles (p : Profile) (d : Disk) (candidates : List Candidate) : List (Path × String) :=
  (candidates.filter fun c => c.isReadable d && p.delegates (Language.ofPath? c.path)).map
    fun c => (c.path, c.relative)

/-- The candidates with what becomes of them. -/
def evaluated (p : Profile) (d : Disk) (candidates : List Candidate) : List EvaluatedFile :=
  candidates.map fun c => (c, p.fate d c)

theorem zip_fate (candidates : List Candidate) :
    candidates.zip (candidates.map (p.fate d)) = p.evaluated d candidates :=
  List.map_prod_left_eq_zip.symm

theorem map_delegated_evaluated (candidates : List Candidate) :
    ((p.evaluated d candidates).filter (·.isDelegated)).map (fun f => (f.1.path, f.1.relative)) =
      p.delegatedFiles d candidates := by
  simp only [evaluated, List.filter_map, List.map_map, Function.comp_def, isDelegated_fate]
  rfl

/-- A result holds the outcomes of the candidates in their order. -/
theorem outcome_resultOf (candidates : List Candidate) (report : LintReport) (failed : Bool) :
    let result := p.resultOf (p.evaluated d candidates) report failed
    (⟨result.findings, result.passedChecks⟩ : Outcome) =
      Outcome.combine (candidates.map (p.outcomeOf d report.outcomes)) := by
  have hown : (fun c => ((EvaluatedFile.contribution p.linterName report.outcomes (c, p.fate d c)).map (·.2)).getD {}) =
      p.outcomeOf d report.outcomes := by
    funext c
    unfold outcomeOf EvaluatedFile.contribution
    cases p.fate d c with
    | delegated => cases report.outcomes.lookup c.relative <;> rfl
    | _ => rfl
  simp only [resultOf, evaluated, List.filterMap_map, List.map_filterMap]
  rw [← hown, ← Outcome.combine_filterMap]
  rfl

theorem restrict_resultOf {report : LintReport} (hon : ∀ x ∈ report.outcomes, x.2.On x.1) {candidates : List Candidate}
    (hlang : ∀ c ∈ candidates, Language.ofPath? (.ofString c.relative) = Language.ofPath? c.path) (failed : Bool) :
    let result := p.resultOf (p.evaluated d candidates) report failed
    (⟨result.findings, result.passedChecks⟩ : Outcome).restrict
        (fun file => !p.delegates (Language.ofPath? (.ofString file))) =
      Outcome.combine (candidates.map (p.outcomeOf d [])) := by
  intro result
  rw [outcome_resultOf, Outcome.restrict_combine, List.map_map]
  exact congrArg Outcome.combine (List.map_congr_left fun c hc => restrict_outcomeOf hon (hlang c hc))

theorem filesScanned_resultOf (candidates : List Candidate) (report : LintReport) (failed : Bool) :
    (p.resultOf (p.evaluated d candidates) report failed).filesScanned = candidates.countP (·.isReadable d) := by
  simp only [resultOf, evaluated, List.countP_map, Function.comp_def, isSkipped_fate, Bool.not_not]

theorem skippedFiles_resultOf (candidates : List Candidate) (report : LintReport) (failed : Bool) :
    (p.resultOf (p.evaluated d candidates) report failed).skippedFiles =
      (candidates.filter (!·.isReadable d)).map (·.relative) := by
  simp only [resultOf, evaluated, List.filter_map, List.map_map, Function.comp_def, isSkipped_fate]

/-- What the linter of a profile reports about some files. -/
def lintReport (p : Profile) (d : Disk) (calls : Nat) (files : List (Path × String)) :
    Except LintFault LintReport :=
  match p.linter with
  | none => .ok {}
  | some l => (l.lint d.resolve calls files).report

theorem resolve_delegatedFiles (hp : d.root.isProper = true) (candidates : List Candidate) :
    ∀ f ∈ p.delegatedFiles d candidates, ∃ q, d.resolve f.1 = .ok q := by
  intro f hf
  obtain ⟨c, hc, rfl⟩ := List.mem_map.1 hf
  obtain ⟨-, hkept⟩ := List.mem_filter.1 hc
  obtain ⟨hread, -⟩ := (Bool.and_eq_true _ _).mp hkept
  unfold Disk.Candidate.isReadable at hread
  split at hread
  · next bytes hfile =>
    obtain ⟨place, hres, -⟩ := Disk.resolve_of_find? hp rfl hfile
    exact ⟨_, hres⟩
  · cases hread

theorem lintReport_of_answers (hp : d.root.isProper = true) {calls : Nat} {candidates : List Candidate}
    (h : ∀ l ∈ p.linter, l.Answers d.resolve calls (p.delegatedFiles d candidates)) :
    ∃ report, p.lintReport d calls (p.delegatedFiles d candidates) = .ok report ∧
      ∀ x ∈ report.outcomes, x.2.On x.1 := by
  unfold lintReport
  cases hl : p.linter with
  | none => exact ⟨{}, rfl, by simp⟩
  | some l =>
    obtain ⟨report, hreport⟩ := Linter.report_of_answers (resolve_delegatedFiles hp candidates) (h l (by simp [hl]))
    exact ⟨report, hreport, fun x hx => (Linter.belongs_of_lint hreport x hx).on⟩

end Profile

/-! ## Judging -/

namespace Audit

variable {a : Audit} {p : Profile} {calls : Nat} {candidates : List Candidate}

theorem mapM_evaluate (hnamed : ∀ c ∈ candidates, c.relative ≠ "") :
    candidates.mapM (p.evaluate a.disk) = .ok (candidates.map (p.fate a.disk)) :=
  mapM_eq_ok_map fun c hc => Profile.evaluate_eq_ok (hnamed c hc)

theorem judge_of_lint (hnamed : ∀ c ∈ candidates, c.relative ≠ "") {report : LintReport} {failed : Bool}
    (h : (a.lint p calls (p.evaluated a.disk candidates)).outcome = .ok (report, failed)) :
    (a.judge p calls candidates).outcome = .ok (p.resultOf (p.evaluated a.disk candidates) report failed) := by
  rw [← Profile.zip_fate] at h ⊢
  exact judge_eq_ok.2 ⟨_, report, failed, mapM_evaluate hnamed, h, rfl⟩

theorem runConcern_of_lint {linter : Option Linter} {d : Disk} {ignored : List String} {root : Path} {concern : Concern}
    {report : LintReport} {failed : Bool} (hp : d.root.isProper = true) :
    let a : Audit := { registry := .standard linter, disk := d, ignoredDirs := ignored }
    let p := Registry.profileOf linter concern
    let candidates := d.candidates ignored root p.filter
    candidates ≠ [] → (a.lint p calls (p.evaluated d candidates)).outcome = .ok (report, failed) →
      (a.runConcern calls root concern).outcome = .ok (p.resultOf (p.evaluated d candidates) report failed) := by
  intro a p candidates hne h
  have hjudge := judge_of_lint (fun c hc => Disk.relative_ne_empty hp hc) h
  exact runConcern_eq_ok.2 ⟨Disk.isDir_of_candidates hne, p, Registry.find?_standard linter concern, .inr ⟨hne, hjudge⟩⟩

theorem lint_of_no_delegated (h : p.delegatedFiles a.disk candidates = []) :
    a.lint p calls (p.evaluated a.disk candidates) = { outcome := .ok ({}, false) } := by
  unfold lint
  rw [Profile.map_delegated_evaluated, h]
  cases p.linter <;> rfl

/-- A linter that answers is reported on. -/
theorem lint_of_report {report : LintReport}
    (h : p.lintReport a.disk calls (p.delegatedFiles a.disk candidates) = .ok report) :
    (a.lint p calls (p.evaluated a.disk candidates)).outcome = .ok (report, false) := by
  unfold Profile.lintReport at h
  unfold lint
  rw [Profile.map_delegated_evaluated]
  cases hl : p.linter with
  | none =>
    rw [hl] at h
    cases h
    rfl
  | some l =>
    rw [hl] at h
    simp only at h ⊢
    cases hd : p.delegatedFiles a.disk candidates with
    | nil =>
      rw [hd] at h
      cases h
      rfl
    | cons f rest =>
      rw [hd] at h
      simp only [List.isEmpty_cons, Bool.false_eq_true, if_false, h]

/-- A linter that is unusable is noted. -/
theorem lint_of_unusable {l : Linter} (hl : p.linter = some l) (hne : p.delegatedFiles a.disk candidates ≠ [])
    {reason : Unusable}
    (h : (l.lint a.disk.resolve calls (p.delegatedFiles a.disk candidates)).report = .error (.unusable reason)) :
    (a.lint p calls (p.evaluated a.disk candidates)).outcome =
      .ok ({ notes := [l.name ++ " unavailable: " ++ reason.message] }, true) := by
  unfold lint
  rw [Profile.map_delegated_evaluated, hl]
  simp only [List.isEmpty_eq_false_iff.2 hne, Bool.false_eq_true, if_false, h]

end Audit
end SourceAudit
