import SourceAudit.Proofs.Audit.Files
import SourceAudit.Proofs.Report.Document

/-!
# JSON reports lose nothing

A JSON report gives the findings of a concern by file. That would lose how findings on different files are mixed, but
an audit does not mix them: it takes one candidate after another, and all that a candidate contributes is on that
candidate.

Results:
* `on_of_lint`: whatever the linter does, what it leaves for a file is on that file.
* `findings_of_runConcern`: the findings of a concern come file by file.
* `document_lossless`: the text of a report tells the report.
-/
namespace SourceAudit

namespace Audit

/-- Whatever the linter does, what it leaves for a file is on that file. -/
theorem on_of_lint {a : Audit} {p : Profile} {calls : Nat} {files : List EvaluatedFile} {report : LintReport}
    {failed : Bool} (h : (a.lint p calls files).outcome = .ok (report, failed)) :
    ∀ x ∈ report.outcomes, x.2.On x.1 := by
  unfold lint at h
  cases hl : p.linter with
  | none =>
    rw [hl] at h
    cases h
    simp
  | some l =>
    rw [hl] at h
    simp only at h
    split at h
    · cases h
      simp
    · split at h
      · next report hreport =>
        cases h
        exact fun x hx => (Linter.belongs_of_lint hreport x hx).on
      · cases h
        simp
      · cases h

/-- The findings of a concern come file by file. -/
theorem findings_of_runConcern {a : Audit} (hp : a.disk.root.isProper = true) {calls : Nat} {root : Path}
    {concern : Concern} {result : Result} (h : (a.runConcern calls root concern).outcome = .ok result) :
    ∃ blocks : List (String × List Finding), (blocks.map (·.1)).Nodup ∧
      (∀ b ∈ blocks, ∀ f ∈ b.2, f.file = b.1) ∧ result.findings = blocks.flatMap (·.2) := by
  obtain ⟨-, p, -, ⟨-, rfl⟩ | ⟨-, hj⟩⟩ := runConcern_eq_ok.1 h
  · exact ⟨[], List.nodup_nil, by simp, rfl⟩
  · obtain ⟨evaluations, report, failed, heval, hlint, rfl⟩ := judge_eq_ok.1 hj
    rw [mapM_evaluate fun c hc => Disk.relative_ne_empty hp hc] at heval
    cases heval
    rw [Profile.zip_fate] at hlint ⊢
    have hon := on_of_lint hlint
    have hfound := congrArg Outcome.findings (Profile.outcome_resultOf (p := p) (d := a.disk)
      (a.disk.candidates a.ignoredDirs root p.filter) report failed)
    refine ⟨(a.disk.candidates a.ignoredDirs root p.filter).map fun c =>
      (c.relative, (p.outcomeOf a.disk report.outcomes c).findings), ?_, ?_, ?_⟩
    · rw [List.map_map]
      exact Disk.nodup_relatives hp
    · exact List.forall_mem_map.2 fun c _ => (Profile.on_outcomeOf hon).findings
    · simpa only [Outcome.combine, List.flatMap_map] using hfound

theorem flatMap_groupByFile_of_runConcern {a : Audit} (hp : a.disk.root.isProper = true) {calls : Nat} {root : Path}
    {concern : Concern} {result : Result} (h : (a.runConcern calls root concern).outcome = .ok result) :
    (groupByFile result.findings).flatMap (·.2) = result.findings := by
  obtain ⟨blocks, hfiles, hon, hfound⟩ := findings_of_runConcern hp h
  rw [hfound, groupByFile_flatMap hfiles hon, flatMap_filter_isEmpty]

end Audit

/-- **A JSON report loses nothing.** Its text is read back as its value, by a reader of integers of any size, and by one
with a limit that no integer of the report exceeds. From the value one can tell, for each concern asked for and in that
order, the concern's state, notes, rules evaluated and passed checks, and for each file the findings on it in their
order. If the report comes from an audit, the findings of the files, one file after another, are those of the concern in
their order. -/
theorem Report.document_lossless (r : Report) :
    Json.read r.document { digits := none } = .ok r.toJson ∧
    (∀ limit : Nat, (∀ i ∈ r.toJson.integers, (Nat.toDigits 10 i.natAbs).length ≤ limit) →
      Json.read r.document { digits := some limit } = .ok r.toJson) ∧
    ∃ views, views? r.toJson = some views ∧
      views.map (·.concern) = r.requested ∧
      List.Forall₂ ConcernView.Shows views r.results ∧
      ∀ (a : Audit) (root : Path) (concerns : List Concern), a.disk.root.isProper = true →
        (a.scan root concerns).outcome = .ok r →
        List.Forall₂ (fun view result => view.findings.flatMap (·.2) = result.findings) views r.results := by
  refine ⟨Json.read_pretty r.fits_toJson (by decide), ?_, r.results.map (·.view), r.views?_toJson, ?_, ?_, ?_⟩
  · intro limit hdigits
    refine Json.read_pretty (r.fits_toJson.within ?_) (show 6 ≤ 980 by decide)
    rintro i hi m ⟨⟩
    exact hdigits i hi
  · rw [List.map_map]
    rfl
  · rw [List.forall₂_map_left_iff, List.forall₂_same]
    exact fun result _ => result.shows_view
  · intro a root concerns hp hscan
    rw [List.forall₂_map_left_iff, List.forall₂_same]
    intro result hresult
    obtain ⟨calls, hrun⟩ := (Audit.results_of_scan hscan).2 result hresult
    exact Audit.flatMap_groupByFile_of_runConcern hp hrun

/-- A tree of two programs. The name of one holds a quote, a backslash, a line end and a character that takes two
escapes to write. -/
def oddNames : Disk where
  root := .dir [("r", .dir [
    ("a.py", .file (Text.Utf8.encode "eval(a)".toList)),
    ("\"\\\n𝄞.py", .file (Text.Utf8.encode "x = 1\neval(b)\nexec(c)".toList))])]

/-- The report on a tree with odd names is read back, and its findings are told in their order. -/
theorem Report.document_lossless_oddNames :
    let a : Audit := { registry := .standard none, disk := oddNames }
    ∃ r, (a.scan ⟨"/", ["r"]⟩ [.cors, .sanitization]).outcome = .ok r ∧ Json.read r.document = .ok r.toJson ∧
      ∃ views, views? r.toJson = some views ∧ views.map (·.concern) = [.cors, .sanitization] ∧
        (views.flatMap (·.findings.flatMap (·.2))).map (fun f => (f.file, f.line)) =
          [("\"\\\n𝄞.py", 2), ("\"\\\n𝄞.py", 3), ("a.py", 1)] := by
  intro a
  have hproper : oddNames.root.isProper = true := by decide +kernel
  have hfound : ((a.scan ⟨"/", ["r"]⟩ [.cors, .sanitization]).outcome.toOption.any fun r =>
      r.toJson.integers.all (fun i => decide ((Nat.toDigits 10 i.natAbs).length ≤ 4300)) &&
        (r.results.flatMap (·.findings)).map (fun f => (f.file, f.line)) =
          [("\"\\\n𝄞.py", 2), ("\"\\\n𝄞.py", 3), ("a.py", 1)]) = true := by decide +kernel
  cases hscan : (a.scan ⟨"/", ["r"]⟩ [.cors, .sanitization]).outcome with
  | error fault => rw [hscan] at hfound; cases hfound
  | ok r =>
    rw [hscan] at hfound
    simp only [Except.toOption, Option.any_some, Bool.and_eq_true, decide_eq_true_eq, List.all_eq_true] at hfound
    obtain ⟨-, hread, views, hviews, hconcerns, -, horder⟩ := Report.document_lossless r
    refine ⟨r, rfl, hread 4300 hfound.1, views, hviews, ?_, ?_⟩
    · rw [hconcerns, (Audit.results_of_scan hscan).1]
    · have hall : views.map (·.findings.flatMap (·.2)) = r.results.map (·.findings) := by
        rw [← List.forall₂_eq_eq_eq, List.forall₂_map_left_iff, List.forall₂_map_right_iff]
        exact horder a _ _ hproper hscan
      rw [← hfound.2, List.flatMap_def, hall, ← List.flatMap_def]

end SourceAudit
