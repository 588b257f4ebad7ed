import SourceAudit.Proofs.Audit.Provenance
import SourceAudit.Proofs.Audit.Verdict
import SourceAudit.Proofs.Rule.LineVerdicts

/-!
# Verdicts that rest on evidence

Whether a file has to do with a concern is asked of its whole text, while its lines are judged one by one. The two
questions need not agree: a pattern that takes newlines can occur in a text and on none of its lines. The rules then
judge a file and have nothing to say about it. If all files that were judged are of this kind, the result holds neither
a finding nor a passed check, and since it did not pass it has failed.

For cross-origin settings this cannot happen. What makes a file a subject is a word, a word stays on its line, and one
of the rules speaks about every line with that word. The sinks of sanitization are calls, with blanks of any kind in
front of the parenthesis; a call that is broken there goes across a newline. A linter has an outcome for a file only if
there is something in it.

Results:
* `Profile.exists_silent`: if a concern was judged without a trace, no rule has anything to say about some candidate.
* `Result.state_eq_failed_iff`: a concern that was judged has failed on a finding, or for want of a passed check.
* `Audit.cors_rests_on_evidence`: a cross-origin verdict rests on evidence.
* `Audit.sanitization_failed_iff`: sanitization fails on findings, or on a sink that is broken across lines.
-/
namespace SourceAudit

open Disk (Candidate)

/-! ## States -/

namespace Result

theorem state_eq_noSubject_iff {r : Result} (h : r.Coherent) (ht : r.toolFailed = false) :
    r.state = .noSubject ↔ r.implemented = false := by
  unfold state
  cases hi : r.implemented with
  | false => simp [ht]
  | true =>
    have ha := h.applicable (.inl hi)
    simp only [ht, ha, Bool.false_and, Bool.false_eq_true, if_false, Bool.not_true, Bool.or_self]
    split <;> simp

/-- A result without a failed tool has failed exactly if files were judged and it holds a finding or no passed check. -/
theorem state_eq_failed_iff {r : Result} (h : r.Coherent) (ht : r.toolFailed = false) :
    r.state = .failed ↔ r.implemented = true ∧ (r.findings ≠ [] ∨ r.passedChecks = []) := by
  unfold state isPass
  cases hi : r.implemented with
  | false => simp [ht]
  | true =>
    have ha := h.applicable (.inl hi)
    cases hf : r.findings <;> cases hc : r.passedChecks <;> simp [ht, ha]

theorem state_of_evidence {r : Result} (h : r.Coherent) (ht : r.toolFailed = false)
    (hevidence : r.implemented = true → r.findings ≠ [] ∨ r.passedChecks ≠ []) :
    (r.state = .failed ↔ r.findings ≠ []) ∧ (r.state = .passed ↔ r.implemented = true ∧ r.findings = []) := by
  rw [state_eq_failed_iff h ht, state_eq_passed_iff h]
  refine ⟨⟨fun ⟨hi, hf⟩ => ?_, fun hf => ?_⟩, ⟨fun ⟨hc, hf, _⟩ => ?_, fun ⟨hi, hf⟩ => ?_⟩⟩
  · rcases hf with hf | hc
    · exact hf
    · exact (hevidence hi).resolve_right (absurd hc)
  · exact ⟨h.implemented (.inl hf), .inl hf⟩
  · exact ⟨h.implemented (.inr hc), hf⟩
  · exact ⟨(hevidence hi).resolve_left (absurd hf), hf, ht⟩

end Result

/-! ## Rules that have something to say -/

namespace Profile

variable {p : Profile} {d : Disk} {c : Candidate} {candidates : List Candidate}

/-- Whether the rules judge a candidate and none has anything to say about it. -/
def isSilent (p : Profile) (d : Disk) (c : Candidate) : Bool :=
  p.isObserved d c && (SourceText.read d c.path).text?.all fun text =>
    (p.rulesFor (Language.ofPath? c.path)).all fun r => (r.verdict c.relative text).isEmpty

/-- Whether a candidate has to do with the concern as a whole, but the trigger of no rule is on a line of it. -/
def straddles (p : Profile) (d : Disk) (c : Candidate) : Bool :=
  p.isObserved d c && (SourceText.read d c.path).text?.all fun text =>
    (p.rulesFor (Language.ofPath? c.path)).all fun r => (Text.lines text).all fun line => !r.triggersOn line

theorem isSilent_eq (hobserved : p.isObserved d c = true) {text : List Char}
    (htext : (SourceText.read d c.path).text? = some text) :
    p.isSilent d c =
      (Outcome.combine ((p.rulesFor (Language.ofPath? c.path)).map (·.verdict c.relative text))).isEmpty := by
  rw [isSilent, hobserved, htext, Bool.true_and, Option.all_some, Bool.eq_iff_iff, Outcome.isEmpty_combine,
    List.forall_mem_map, List.all_eq_true]

theorem isSilent_eq_straddles (hrules : ∀ r ∈ p.rules, ∃ check, r = .line check) :
    p.isSilent d c = p.straddles d c := by
  have hrule : ∀ r ∈ p.rulesFor (Language.ofPath? c.path), ∀ text,
      (r.verdict c.relative text).isEmpty = (Text.lines text).all fun line => !r.triggersOn line := by
    intro r hr text
    obtain ⟨check, rfl⟩ := hrules r (List.mem_filter.1 hr).1
    rw [Bool.eq_iff_iff, LineCheck.isEmpty_verdict, List.all_eq_true]
    simp only [Rule.triggersOn, Bool.not_eq_true']
  unfold isSilent straddles
  congr 2
  funext text
  rw [Bool.eq_iff_iff, List.all_eq_true, List.all_eq_true]
  exact forall₂_congr fun r hr => by rw [hrule r hr text]

theorem implemented_resultOf_iff {report : LintReport} {failed : Bool} :
    (p.resultOf (p.evaluated d candidates) report failed).implemented = true ↔
      ∃ c ∈ candidates, p.isObserved d c = true ∨ p.isAnswered d report.outcomes c = true := by
  rw [← contributions_ne_nil, ← List.isEmpty_eq_false_iff, ← Bool.not_eq_true']
  rfl

/-- If a concern was judged without a trace, no rule has anything to say about some candidate that the rules judged,
provided the linter has something to say wherever it has an outcome. -/
theorem exists_silent {report : LintReport} (hlinted : ∀ x ∈ report.outcomes, x.2.isEmpty = false) (failed : Bool) :
    let result := p.resultOf (p.evaluated d candidates) report failed
    result.implemented = true → result.findings = [] → result.passedChecks = [] →
      ∃ c ∈ candidates, p.isSilent d c = true := by
  intro result himplemented hfindings hpassed
  have hempty : (Outcome.combine ((p.contributions d report.outcomes candidates).map (·.2))).isEmpty = true :=
    Outcome.isEmpty_iff.2 ⟨hfindings, hpassed⟩
  have hne : p.contributions d report.outcomes candidates ≠ [] :=
    contributions_ne_nil.2 (implemented_resultOf_iff.1 himplemented)
  obtain ⟨⟨names, o⟩, hx⟩ := List.exists_mem_of_ne_nil _ hne
  have ho : o.isEmpty = true := Outcome.isEmpty_combine.1 hempty o (List.mem_map_of_mem hx)
  obtain ⟨c, hc, hcon⟩ := mem_contributions.1 hx
  rcases contribution_eq_some.1 hcon with ⟨hobserved, -, text, htext, rfl⟩ | ⟨-, -, hlook⟩
  · exact ⟨c, hc, (isSilent_eq hobserved htext).trans ho⟩
  · rw [hlinted _ (Association.mem_of_lookup hlook)] at ho
    cases ho

theorem isEmpty_of_lintReport {calls : Nat} {files : List (Path × String)} {report : LintReport}
    (h : p.lintReport d calls files = .ok report) : ∀ x ∈ report.outcomes, x.2.isEmpty = false := by
  unfold lintReport at h
  split at h
  · cases h
    simp
  · exact Linter.isEmpty_of_lint h

end Profile

/-- If the linter answers about the files left to it, a concern has a result without a failed tool. It was judged
exactly if the rules judged a candidate or the linter has an outcome for one, and if it was judged without a trace, then
no rule has anything to say about some candidate. -/
theorem Audit.exists_result (linter : Option Linter) (d : Disk) (ignored : List String) (root : Path) (calls : Nat)
    (concern : Concern) (hp : d.root.isProper = true) (hroot : d.isDir root = true) :
    let a : Audit := { registry := .standard linter, disk := d, ignoredDirs := ignored }
    let p := Registry.profileOf linter concern
    let candidates := d.candidates ignored root p.filter
    (∀ l ∈ p.linter, l.Answers d.resolve calls (p.delegatedFiles d candidates)) →
      ∃ result, (a.runConcern calls root concern).outcome = .ok result ∧ result.toolFailed = false ∧
        (result.implemented = true ↔ ∃ c ∈ candidates,
          p.isObserved d c = true ∨ p.isAnswered d (p.linted d calls candidates) c = true) ∧
        (result.implemented = true → result.findings = [] → result.passedChecks = [] →
          ∃ c ∈ candidates, p.isSilent d c = true) := by
  intro a p candidates hanswers
  by_cases hnone : candidates = []
  · refine ⟨_, runConcern_eq_ok.2 ⟨hroot, p, Registry.find?_standard linter concern, .inl ⟨hnone, rfl⟩⟩, rfl, ?_, nofun⟩
    rw [hnone]
    exact ⟨nofun, nofun⟩
  · obtain ⟨report, hreport, -⟩ := Profile.lintReport_of_answers hp hanswers
    have hlinted : p.linted d calls candidates = report.outcomes := by
      rw [Profile.linted, hreport]
      rfl
    rw [hlinted]
    refine ⟨_, runConcern_of_lint hp hnone (lint_of_report hreport), rfl, Profile.implemented_resultOf_iff, ?_⟩
    exact Profile.exists_silent (Profile.isEmpty_of_lintReport hreport) false

/-! ## Cross-origin settings -/

theorem Pattern.occursIn_alt_left {p q : Pattern} {text : List Char} (h : p.occursIn text = true) :
    (alt p q).occursIn text = true := by
  obtain ⟨pre, post, htext, hstarts⟩ := occursIn_iff.1 h
  refine occursIn_iff.2 ⟨pre, post, htext, ?_⟩
  show (p.startsAt _ post || q.startsAt _ post) = true
  rw [hstarts, Bool.true_or]

theorem Catalogue.Cors.exists_line_of_subject {text : List Char} (h : subject.occursIn text = true) :
    ∃ line ∈ Text.lines text, subject.occursIn line = true ∧ wildcardOrigin.triggersOn line = true := by
  have hstays : subject.staysOnLine = true := by decide +kernel
  obtain ⟨line, hline, hoccurs⟩ := Pattern.exists_line_of_occursIn hstays h
  exact ⟨line, hline, hoccurs, Pattern.occursIn_alt_left hoccurs⟩

theorem Registry.not_isAnswered_cors {linter : Option Linter} {d : Disk} {linted : List (String × Outcome)}
    {c : Candidate} : (profileOf linter .cors).isAnswered d linted c = false := by
  show (c.isReadable d && false && _) = false
  rw [Bool.and_false, Bool.false_and]

theorem Registry.isObserved_cors_iff {linter : Option Linter} {d : Disk} {c : Candidate} :
    (profileOf linter .cors).isObserved d c = true ↔
      ∃ text, (SourceText.read d c.path).text? = some text ∧ Catalogue.Cors.subject.occursIn text = true := by
  rw [← Option.any_eq_true]
  show (true && true && (SourceText.read d c.path).text?.any Catalogue.Cors.subject.occursIn) = true ↔ _
  rw [Bool.and_self, Bool.true_and]

theorem Registry.not_isSilent_cors {linter : Option Linter} {d : Disk} {c : Candidate} :
    (profileOf linter .cors).isSilent d c = false := by
  rw [Bool.eq_false_iff]
  intro h
  rw [Profile.isSilent, Bool.and_eq_true] at h
  obtain ⟨hobserved, hsilent⟩ := h
  obtain ⟨text, htext, hsubject⟩ := isObserved_cors_iff.1 hobserved
  rw [htext, Option.all_some, List.all_eq_true] at hsilent
  -- The rule on origins is for all languages.
  have hrule : .line Catalogue.Cors.wildcardOrigin ∈ (profileOf linter .cors).rulesFor (Language.ofPath? c.path) :=
    List.mem_filter.2 ⟨.head _, rfl⟩
  obtain ⟨line, hline, -, htrigger⟩ := Catalogue.Cors.exists_line_of_subject hsubject
  rw [LineCheck.isEmpty_verdict.1 (hsilent _ hrule) line hline] at htrigger
  cases htrigger

/-- **A cross-origin verdict rests on evidence.** On every tree the concern has a result. It was judged exactly if the
word that makes a file a subject occurs in the text of some candidate, and then there is a finding or a passed check. So
it has failed exactly if there is a finding, it has passed exactly if it was judged and there is none, and otherwise it
has no subject. Whatever the name and the text of a file, if the word that
makes it a subject occurs in the text, in any case, then it occurs on some line, and the rule on origins has a finding
or a passed check there. -/
theorem Audit.cors_rests_on_evidence (linter : Option Linter) (d : Disk) (ignored : List String) (root : Path)
    (calls : Nat) (hp : d.root.isProper = true) (hroot : d.isDir root = true) :
    let a : Audit := { registry := .standard linter, disk := d, ignoredDirs := ignored }
    (∃ result, (a.runConcern calls root .cors).outcome = .ok result ∧
      (result.implemented = true ↔ ∃ c ∈ d.candidates ignored root (Registry.profileOf linter .cors).filter,
        ∃ text, (SourceText.read d c.path).text? = some text ∧ Catalogue.Cors.subject.occursIn text = true) ∧
      (result.implemented = true → result.findings ≠ [] ∨ result.passedChecks ≠ []) ∧
      (result.state = .failed ↔ result.findings ≠ []) ∧
      (result.state = .passed ↔ result.implemented = true ∧ result.findings = []) ∧
      (result.state = .noSubject ↔ result.implemented = false)) ∧
    ∀ file text, file ≠ "" → Catalogue.Cors.subject.occursIn text = true →
      ∃ o n line, Catalogue.Cors.wildcardOrigin.evaluate file text = .ok o ∧ Text.IsLine text n line ∧
        Catalogue.Cors.subject.occursIn line = true ∧
        (n ∈ o.findings.map (·.line) ∨ some n ∈ o.passedChecks.map (·.line)) := by
  intro a
  refine ⟨?_, fun file text hfile hsubject => ?_⟩
  · obtain ⟨result, hrun, htool, hjudged, hsilent⟩ := exists_result linter d ignored root calls .cors hp hroot nofun
    have hcoherent := coherent_of_runConcern hrun
    have hevidence : result.implemented = true → result.findings ≠ [] ∨ result.passedChecks ≠ [] := by
      intro himplemented
      by_contra hnone
      rw [not_or, not_not, not_not] at hnone
      obtain ⟨c, -, hc⟩ := hsilent himplemented hnone.1 hnone.2
      rw [Registry.not_isSilent_cors] at hc
      cases hc
    obtain ⟨hfailed, hpassed⟩ := Result.state_of_evidence hcoherent htool hevidence
    refine ⟨result, hrun, ?_, hevidence, hfailed, hpassed, Result.state_eq_noSubject_iff hcoherent htool⟩
    rw [hjudged]
    refine exists_congr fun c => and_congr_right fun _ => ?_
    rw [Registry.not_isAnswered_cors, Registry.isObserved_cors_iff]
    exact or_iff_left Bool.false_ne_true
  · obtain ⟨line, hline, hoccurs, htrigger⟩ := Catalogue.Cors.exists_line_of_subject hsubject
    obtain ⟨n, hn⟩ := Text.exists_isLine hline
    refine ⟨_, n, line, (Rule.line Catalogue.Cors.wildcardOrigin).evaluate_eq_ok text hfile, hn, hoccurs, ?_⟩
    rw [LineCheck.lines_findings, LineCheck.lines_passedChecks]
    exact (LineCheck.mem_lines_iff.2 ⟨line, hn, htrigger⟩).imp_right (List.mem_map_of_mem (f := some))

/-- A tree with a script that sets its origin and a page without any setting. -/
def originTree : Disk where
  root := .dir [("r", .dir [
    ("page.php", .file (Text.Utf8.encode "<p>".toList)),
    ("server.js", .file (Text.Utf8.encode "use(\ncors(o))".toList))])]

/-- The script is judged and passes, and the word counts with a long s, too. -/
theorem Audit.cors_rests_on_evidence_originTree :
    let a : Audit := { registry := .standard (some silentLinter), disk := originTree }
    originTree.root.isProper = true ∧ originTree.isDir ⟨"/", ["r"]⟩ = true ∧
    (∃ result, (a.runConcern 0 ⟨"/", ["r"]⟩ .cors).outcome = .ok result ∧ result.implemented = true ∧
      result.findings = [] ∧ result.passedChecks ≠ [] ∧ result.state = .passed) ∧
    ∃ o n line, Catalogue.Cors.wildcardOrigin.evaluate "server.js" "x\nCORſ".toList = .ok o ∧
      Text.IsLine "x\nCORſ".toList n line ∧ Catalogue.Cors.subject.occursIn line = true ∧
      (n ∈ o.findings.map (·.line) ∨ some n ∈ o.passedChecks.map (·.line)) := by
  intro a
  have hproper : originTree.root.isProper = true := by decide +kernel
  have hroot : originTree.isDir ⟨"/", ["r"]⟩ = true := by decide +kernel
  have hjudged : (a.runConcern 0 ⟨"/", ["r"]⟩ .cors).outcome.toOption.map
      (fun result => (result.implemented, result.findings)) = some (true, []) := by decide +kernel
  obtain ⟨⟨result, hrun, -, hevidence, -, hpassed, -⟩, hlines⟩ :=
    cors_rests_on_evidence (some silentLinter) originTree defaultIgnoredDirs ⟨"/", ["r"]⟩ 0 hproper hroot
  rw [hrun] at hjudged
  obtain ⟨himplemented, hnone⟩ := Prod.mk.inj (Option.some.inj hjudged)
  refine ⟨hproper, hroot, ⟨result, hrun, himplemented, hnone, ?_, hpassed.2 ⟨himplemented, hnone⟩⟩, ?_⟩
  · exact (hevidence himplemented).resolve_left (absurd hnone)
  · exact hlines "server.js" _ (by decide) (by decide +kernel)

/-! ## Sanitization -/

theorem Registry.line_of_mem_sanitization {linter : Option Linter} {r : Rule}
    (hr : r ∈ (profileOf linter .sanitization).rules) : ∃ check, r = .line check := by
  obtain ⟨check, -, rfl⟩ := List.mem_map.1 hr
  exact ⟨check, rfl⟩

/-- **Sanitization fails on findings, or on sinks that are broken across lines.** If the linter answers about the files
left to it, the concern has a result, and it has failed exactly if it holds a finding, or holds no passed check although
some candidate straddles lines. The rules have a finding or a passed check for a candidate that they judge exactly if it
does not straddle lines. -/
theorem Audit.sanitization_failed_iff (linter : Option Linter) (d : Disk) (ignored : List String) (root : Path)
    (calls : Nat) (hp : d.root.isProper = true) (hroot : d.isDir root = true) :
    let a : Audit := { registry := .standard linter, disk := d, ignoredDirs := ignored }
    let p := Registry.profileOf linter .sanitization
    let candidates := d.candidates ignored root p.filter
    (∀ l ∈ linter, l.Answers d.resolve calls (p.delegatedFiles d candidates)) →
      (∃ result, (a.runConcern calls root .sanitization).outcome = .ok result ∧ result.toolFailed = false ∧
        (result.state = .failed ↔
          result.findings ≠ [] ∨ result.passedChecks = [] ∧ ∃ c ∈ candidates, p.straddles d c = true)) ∧
      ∀ c ∈ candidates, p.isObserved d c = true → ∃ text o, (SourceText.read d c.path).text? = some text ∧
        Rule.evaluateAll (p.rulesFor (Language.ofPath? c.path)) c.relative text = .ok o ∧
        (o.findings ≠ [] ∨ o.passedChecks ≠ [] ↔ p.straddles d c = false) := by
  intro a p candidates hanswers
  have hsilent : ∀ c, p.isSilent d c = p.straddles d c :=
    fun c => Profile.isSilent_eq_straddles fun r hr => Registry.line_of_mem_sanitization hr
  refine ⟨?_, fun c hc hobserved => ?_⟩
  · obtain ⟨result, hrun, htool, hjudged, htrace⟩ :=
      exists_result linter d ignored root calls .sanitization hp hroot hanswers
    have hcoherent := coherent_of_runConcern hrun
    refine ⟨result, hrun, htool, ?_⟩
    rw [Result.state_eq_failed_iff hcoherent htool]
    constructor
    · intro ⟨himplemented, hfailed⟩
      by_cases hnone : result.findings = []
      · have hpassed := hfailed.resolve_left (absurd hnone)
        obtain ⟨c, hc, hstraddles⟩ := htrace himplemented hnone hpassed
        exact .inr ⟨hpassed, c, hc, hsilent c ▸ hstraddles⟩
      · exact .inl hnone
    · intro hfailed
      rcases hfailed with hfound | ⟨hpassed, c, hc, hstraddles⟩
      · exact ⟨hcoherent.implemented (.inl hfound), .inl hfound⟩
      · exact ⟨hjudged.2 ⟨c, hc, .inl ((Bool.and_eq_true _ _).mp hstraddles).1⟩, .inr hpassed⟩
  · have hreadable := (c.isSome_text? d).trans (Profile.isReadable_of_isObserved hobserved)
    obtain ⟨text, htext⟩ := Option.isSome_iff_exists.1 hreadable
    refine ⟨text, _, htext, Rule.evaluateAll_eq_ok _ text (Disk.relative_ne_empty hp hc), ?_⟩
    rw [← Outcome.isEmpty_eq_false_iff, ← hsilent, Profile.isSilent_eq hobserved htext]

/-- A tree with a call that is broken in front of its parenthesis. -/
def brokenCallTree : Disk where
  root := .dir [("r", .dir [("a.py", .file (Text.Utf8.encode "eval\n(x)\n".toList))])]

/-- The call is on no line, so it is judged and nothing is said about it. -/
theorem Audit.sanitization_failed_iff_brokenCallTree :
    let a : Audit := { registry := .standard (some silentLinter), disk := brokenCallTree }
    let p := Registry.profileOf (some silentLinter) .sanitization
    let candidates := brokenCallTree.candidates defaultIgnoredDirs ⟨"/", ["r"]⟩ p.filter
    brokenCallTree.root.isProper = true ∧ brokenCallTree.isDir ⟨"/", ["r"]⟩ = true ∧
      p.delegatedFiles brokenCallTree candidates = [] ∧ (∃ c ∈ candidates, p.straddles brokenCallTree c = true) ∧
      ∃ result, (a.runConcern 0 ⟨"/", ["r"]⟩ .sanitization).outcome = .ok result ∧ result.passedChecks = [] ∧
        result.state = .failed := by
  intro a p candidates
  have hproper : brokenCallTree.root.isProper = true := by decide +kernel
  have hroot : brokenCallTree.isDir ⟨"/", ["r"]⟩ = true := by decide +kernel
  have hlocal : p.delegatedFiles brokenCallTree candidates = [] := by decide +kernel
  have hstraddles : ∃ c ∈ candidates, p.straddles brokenCallTree c = true := by decide +kernel
  have hpassed : (a.runConcern 0 ⟨"/", ["r"]⟩ .sanitization).outcome.toOption.map (·.passedChecks) = some [] := by
    decide +kernel
  have hanswers : ∀ l ∈ some silentLinter,
      l.Answers brokenCallTree.resolve 0 (p.delegatedFiles brokenCallTree candidates) := by
    rw [hlocal]
    intro l hl requested hrequested
    cases hl
    cases hrequested
    exact ⟨[], rfl, nofun⟩
  obtain ⟨⟨result, hrun, -, hfailed⟩, -⟩ := sanitization_failed_iff (some silentLinter) brokenCallTree
    defaultIgnoredDirs ⟨"/", ["r"]⟩ 0 hproper hroot hanswers
  rw [hrun] at hpassed
  have hnone : result.passedChecks = [] := Option.some.inj hpassed
  exact ⟨hproper, hroot, hlocal, hstraddles, result, hrun, hnone, hfailed.2 (.inr ⟨hnone, hstraddles⟩)⟩

/-- Sanitization can fail without a finding. -/
theorem Audit.sanitization_fails_silently :
    let a : Audit := { registry := .standard (some silentLinter), disk := brokenCallTree }
    ∃ result, (a.runConcern 0 ⟨"/", ["r"]⟩ .sanitization).outcome = .ok result ∧ result.toolFailed = false ∧
      result.findings = [] ∧ result.state = .failed := by
  intro a
  have hfails : (a.runConcern 0 ⟨"/", ["r"]⟩ .sanitization).outcome.toOption.map
      (fun result => (result.toolFailed, result.findings, result.state)) = some (false, [], .failed) := by
    decide +kernel
  obtain ⟨result, hrun, h⟩ := Option.map_eq_some_iff.1 hfails
  obtain ⟨htool, h⟩ := Prod.mk.inj h
  exact ⟨result, Fallible.eq_ok_of_toOption hrun, htool, Prod.mk.inj h⟩

end SourceAudit
