import SourceAudit.Proofs.Audit.Files

/-!
# The accounts of a concern

Every candidate of a concern is either scanned or passed over, and the result holds what the scanned ones
contribute: nothing is lost, doubled or moved. What the rules found comes by candidate, then by rule, then by line.

Results:
* `Profile.ranks_combine`: the findings of the rules rank strictly upwards.
* `runConcern_accounts`: the accounts of a concern whose linter answers.
-/
namespace SourceAudit

open Disk (Candidate)
open Fallible

theorem pairwise_idxOf {α : Type} [DecidableEq α] {xs : List α} (h : xs.Nodup) :
    xs.Pairwise fun x y => xs.idxOf x < xs.idxOf y := by
  rw [List.pairwise_iff_getElem]
  intro i j hi hj hij
  rwa [h.idxOf_getElem i hi, h.idxOf_getElem j hj]

namespace Profile

variable {p : Profile} {d : Disk} {candidates : List Candidate}

/-- Where a finding stands: the index of its file among the candidates, of its rule in the profile, and its line. -/
def rank (p : Profile) (candidates : List Candidate) (f : Finding) : Nat × Nat × Nat :=
  ((candidates.map (·.relative)).idxOf f.file, (p.rules.map (·.name)).idxOf f.rule, f.line)

/-- One finding ranks before another: by file, then by rule, then by line. -/
def RanksBefore (p : Profile) (candidates : List Candidate) (f g : Finding) : Prop :=
  Prod.Lex (· < ·) (Prod.Lex (· < ·) (· < ·)) (p.rank candidates f) (p.rank candidates g)

theorem ranks_outcomeOf (hrules : (p.rules.map (·.name)).Nodup) (c : Candidate) :
    (p.outcomeOf d [] c).findings.Pairwise (p.RanksBefore candidates) := by
  unfold outcomeOf
  split
  · next hfate =>
    obtain ⟨-, -, text, rfl⟩ := of_fate_eq_judged hfate
    simp only [Outcome.combine, List.flatMap_map, List.pairwise_flatMap]
    constructor
    · -- Within a rule only the lines differ.
      intro r _
      refine (r.lines_verdict c.relative text).imp_of_mem fun {f g} hf hg hlt => ?_
      obtain ⟨hfile, hrule, -⟩ := (r.belongs_verdict c.relative text).findings f hf
      obtain ⟨hfile', hrule', -⟩ := (r.belongs_verdict c.relative text).findings g hg
      simp only [RanksBefore, rank, hfile, hfile', hrule, hrule']
      exact .right _ (.right _ hlt)
    · -- Rules come in the order of the profile.
      have hnames := List.pairwise_map.1 (pairwise_idxOf hrules)
      refine (hnames.sublist List.filter_sublist).imp fun {r s} hlt f hf g hg => ?_
      obtain ⟨hfile, hrule, -⟩ := (r.belongs_verdict c.relative text).findings f hf
      obtain ⟨hfile', hrule', -⟩ := (s.belongs_verdict c.relative text).findings g hg
      simp only [RanksBefore, rank, hfile, hfile', hrule, hrule']
      exact .right _ (.left _ _ hlt)
  · simp
  · simp

/-- The findings of the rules rank strictly upwards. -/
theorem ranks_combine (hrules : (p.rules.map (·.name)).Nodup) (hfiles : (candidates.map (·.relative)).Nodup) :
    (Outcome.combine (candidates.map (p.outcomeOf d []))).findings.Pairwise (p.RanksBefore candidates) := by
  simp only [Outcome.combine, List.flatMap_map, List.pairwise_flatMap]
  refine ⟨fun c _ => ranks_outcomeOf hrules c, ?_⟩
  refine (List.pairwise_map.1 (pairwise_idxOf hfiles)).imp fun {c e} hlt f hf g hg => ?_
  have hon : ∀ c : Candidate, (p.outcomeOf d [] c).On c.relative := fun c => on_outcomeOf (by simp)
  simp only [RanksBefore, rank, (hon c).findings f hf, (hon e).findings g hg]
  exact .left _ _ hlt

theorem rule_mem_of_outcomeOf {c : Candidate} {f : Finding} (h : f ∈ (p.outcomeOf d [] c).findings) :
    f.rule ∈ p.rules.map (·.name) := by
  unfold outcomeOf at h
  split at h
  · next hfate =>
    obtain ⟨-, -, text, rfl⟩ := of_fate_eq_judged hfate
    obtain ⟨o, ho, hf⟩ := List.mem_flatMap.1 h
    obtain ⟨r, hr, rfl⟩ := List.mem_map.1 ho
    rw [((r.belongs_verdict c.relative text).findings f hf).2.1]
    exact List.mem_map_of_mem (List.mem_filter.1 hr).1
  · simp at h
  · simp at h

/-- What a candidate has to itself: what the linter reports on it if it is left to the linter, and what all rules for
its language find in its text if that has to do with the concern. -/
def ownOutcome (p : Profile) (d : Disk) (report : LintReport) (c : Candidate) : Except EntryFault Outcome :=
  match (SourceText.read d c.path).text? with
  | none => .ok {}
  | some text =>
    let rules := p.rulesFor (Language.ofPath? c.path)
    if p.delegates (Language.ofPath? c.path) then .ok ((report.outcomes.lookup c.relative).getD {})
    else if p.observes rules text then Rule.evaluateAll rules c.relative text
    else .ok {}

theorem ownOutcome_eq_ok {c : Candidate} (hc : c.relative ≠ "") (report : LintReport) :
    p.ownOutcome d report c = .ok (p.outcomeOf d report.outcomes c) := by
  unfold ownOutcome outcomeOf fate
  cases (SourceText.read d c.path).text? with
  | none => rfl
  | some text =>
    simp only [Rule.evaluateAll_eq_ok _ text hc]
    cases hdel : p.delegates (Language.ofPath? c.path) with
    | true => simp
    | false =>
      cases hrules : (p.rulesFor (Language.ofPath? c.path)) with
      | nil => simp [Outcome.combine]
      | cons r rest =>
        cases p.observes (r :: rest) text <;> simp

end Profile

theorem Registry.nodup_rules (linter : Option Linter) (concern : Concern) :
    ((profileOf linter concern).rules.map (·.name)).Nodup := by
  cases concern <;> simp only [profileOf] <;> decide +kernel

/-- **The accounts of a concern.** On a proper disk, with candidates to look at and a linter that answers, judging a
concern gives a result. It counts each candidate as scanned or names it as passed over, and passes over those that are
no file, are larger than 1000000 bytes or hold a zero byte. Its findings and passed checks are those of the
candidates, one candidate after the other. Those of the rules rank strictly upwards by candidate, rule and line. -/
theorem Audit.runConcern_accounts (linter : Option Linter) (d : Disk) (ignored : List String) (calls : Nat)
    (root : Path) (concern : Concern) (hp : d.root.isProper = true) :
    let p := Registry.profileOf linter concern
    let candidates := d.candidates ignored root p.filter
    let byRules := fun f : Finding => !p.delegates (Language.ofPath? (.ofString f.file))
    candidates ≠ [] →
    (∀ l ∈ p.linter, l.Answers d.resolve calls (p.delegatedFiles d candidates)) →
    ∃ (report : LintReport) (own : Candidate → Outcome) (result : Result),
      p.lintReport d calls (p.delegatedFiles d candidates) = .ok report ∧
      (∀ c ∈ candidates, p.ownOutcome d report c = .ok (own c) ∧ (own c).On c.relative) ∧
      (runConcern { registry := .standard linter, disk := d, ignoredDirs := ignored } calls root concern).outcome =
        .ok result ∧
      result.filesScanned + result.skippedFiles.length = candidates.length ∧
      result.skippedFiles = (candidates.filter (!·.isReadable d)).map (·.relative) ∧
      result.findings = candidates.flatMap (fun c => (own c).findings) ∧
      result.passedChecks = candidates.flatMap (fun c => (own c).passedChecks) ∧
      (result.findings.filter byRules).Pairwise (p.RanksBefore candidates) ∧
      ∀ f ∈ result.findings.filter byRules, f.rule ∈ p.rules.map (·.name) := by
  intro p candidates byRules hne hanswers
  let a : Audit := { registry := .standard linter, disk := d, ignoredDirs := ignored }
  have hnamed : ∀ c ∈ candidates, c.relative ≠ "" := fun c hc => Disk.relative_ne_empty hp hc
  obtain ⟨report, hreport, hon⟩ := Profile.lintReport_of_answers hp hanswers
  let result := p.resultOf (p.evaluated d candidates) report false
  have hrun : (a.runConcern calls root concern).outcome = .ok result :=
    runConcern_of_lint hp hne (lint_of_report hreport)
  have hout : (⟨result.findings, result.passedChecks⟩ : Outcome) =
      Outcome.combine (candidates.map (p.outcomeOf d report.outcomes)) := Profile.outcome_resultOf ..
  -- What the rules found is what the candidates contribute without the linter.
  have hrules : result.findings.filter byRules =
      (Outcome.combine (candidates.map (p.outcomeOf d []))).findings :=
    congrArg Outcome.findings (Profile.restrict_resultOf hon (fun c hc => Disk.language_relative hp hc) false)
  refine ⟨report, p.outcomeOf d report.outcomes, result, hreport, ?_, hrun, ?_, ?_, ?_, ?_, ?_, ?_⟩
  · exact fun c hc => ⟨Profile.ownOutcome_eq_ok (hnamed c hc) report, Profile.on_outcomeOf hon⟩
  · rw [Profile.filesScanned_resultOf, Profile.skippedFiles_resultOf, List.length_map, ← List.countP_eq_length_filter]
    simpa using (List.length_eq_countP_add_countP (fun c : Candidate => c.isReadable d) (l := candidates)).symm
  · exact Profile.skippedFiles_resultOf ..
  · simpa [Outcome.combine, List.flatMap_map] using congrArg Outcome.findings hout
  · simpa [Outcome.combine, List.flatMap_map] using congrArg Outcome.passedChecks hout
  · rw [hrules]
    exact Profile.ranks_combine (Registry.nodup_rules linter concern) (Disk.nodup_relatives hp)
  · intro f hf
    rw [hrules] at hf
    obtain ⟨o, ho, hf⟩ := List.mem_flatMap.1 hf
    obtain ⟨c, -, rfl⟩ := List.mem_map.1 ho
    exact Profile.rule_mem_of_outcomeOf hf

/-! ## A tree of all kinds of files -/

/-- A linter that finds an evaluation on the first line of each file. -/
def alarmLinter : Linter where
  backend := {
    name := "eslint"
    run := fun _ paths => {
      entries := .ok (paths.map fun p => .object [("filePath", .string (.text p)), ("messages", .array [
        .object [("ruleId", .string (.text "no-eval")), ("line", .int 1),
          ("message", .string (.text "eval can be harmful."))]])])
      calls := [paths] } }

/-- A tree with a script for the linter, a file that holds a zero byte, a page without any sink and a program in which
two rules find something. -/
def mixedTree : Disk where
  root := .dir [("r", .dir [
    ("run.py", .file (Text.Utf8.encode "exec(a)\nyaml.load(f)\neval(b)".toList)),
    ("app.js", .file (Text.Utf8.encode "eval(x)".toList)),
    ("blob.php", .file [60, 0]),
    ("page.php", .file (Text.Utf8.encode "<p>".toList))])]

theorem answers_alarmLinter : alarmLinter.Answers mixedTree.resolve 0 [(⟨"/", ["r", "app.js"]⟩, "app.js")] := by
  intro requested hreq
  have hrequest : Linter.requestedOf mixedTree.resolve [(⟨"/", ["r", "app.js"]⟩, "app.js")] =
      .ok [("/r/app.js", "app.js")] := by decide +kernel
  rw [hrequest] at hreq
  cases hreq
  refine ⟨_, rfl, ?_⟩
  rw [List.map_singleton, List.map_singleton, List.forall_mem_singleton]
  exact exists_of_toBool (by decide +kernel)

/-- The tree gives findings by candidate, rule and line, with those of the linter in their place. -/
theorem Audit.runConcern_accounts_mixedTree :
    let a : Audit := { registry := .standard (some alarmLinter), disk := mixedTree }
    let p := Registry.profileOf (some alarmLinter) .sanitization
    let candidates := mixedTree.candidates defaultIgnoredDirs ⟨"/", ["r"]⟩ p.filter
    mixedTree.root.isProper = true ∧ candidates.map (·.relative) = ["app.js", "blob.php", "page.php", "run.py"] ∧
      p.delegatedFiles mixedTree candidates = [(⟨"/", ["r", "app.js"]⟩, "app.js")] ∧
      ∃ result, (a.runConcern 0 ⟨"/", ["r"]⟩ .sanitization).outcome = .ok result ∧
        result.filesScanned + result.skippedFiles.length = 4 ∧ result.skippedFiles = ["blob.php"] ∧
        result.findings.map (fun f => (f.file, f.rule, f.line)) = [("app.js", "eslint", 1),
          ("run.py", "python_dynamic_eval", 1), ("run.py", "python_dynamic_eval", 3),
          ("run.py", "python_unsafe_yaml_load", 2)] ∧
        (result.findings.filter fun f => !p.delegates (Language.ofPath? (.ofString f.file))).Pairwise
          (p.RanksBefore candidates) := by
  intro a p candidates
  have hproper : mixedTree.root.isProper = true := by decide +kernel
  have hnames : candidates.map (·.relative) = ["app.js", "blob.php", "page.php", "run.py"] := by decide +kernel
  have hdelegated : p.delegatedFiles mixedTree candidates = [(⟨"/", ["r", "app.js"]⟩, "app.js")] := by decide +kernel
  have hskipped : (candidates.filter (!·.isReadable mixedTree)).map (·.relative) = ["blob.php"] := by decide +kernel
  have hfound : (a.runConcern 0 ⟨"/", ["r"]⟩ .sanitization).outcome.toOption.map
      (·.findings.map fun f => (f.file, f.rule, f.line)) = some [("app.js", "eslint", 1),
        ("run.py", "python_dynamic_eval", 1), ("run.py", "python_dynamic_eval", 3),
        ("run.py", "python_unsafe_yaml_load", 2)] := by decide +kernel
  have hne : candidates ≠ [] := fun h => by rw [h] at hnames; cases hnames
  have hanswers : ∀ l ∈ p.linter, l.Answers mixedTree.resolve 0 (p.delegatedFiles mixedTree candidates) := by
    intro l hl
    cases hl
    rw [hdelegated]
    exact answers_alarmLinter
  obtain ⟨report, own, result, -, -, hrun, hcount, hskip, -, -, hranks, -⟩ :=
    Audit.runConcern_accounts (some alarmLinter) mixedTree defaultIgnoredDirs 0 ⟨"/", ["r"]⟩ .sanitization hproper
      hne hanswers
  refine ⟨hproper, hnames, hdelegated, result, hrun, ?_, hskip.trans hskipped, ?_, hranks⟩
  · rw [hcount, ← List.length_map, hnames]
    rfl
  · rw [hrun] at hfound
    exact Option.some.inj hfound

end SourceAudit
