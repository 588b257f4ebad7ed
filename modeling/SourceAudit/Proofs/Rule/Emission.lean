import SourceAudit.Proofs.Fallible
import SourceAudit.Rule.Basic

/-!
# What rules emit

Making a finding or a passed check can fail, but only for a file without a name: a rule counts lines and columns from
one. On a named file a rule therefore always gives its `verdict`, a plain function of the text.

Results:
* `Rule.evaluateAll_eq_ok`: on a named file rules give their verdicts, one after another.
* `Rule.belongs_verdict`: all that a rule emits bears the file it was asked about, its name and its concern.
* `Rule.lines_verdict`: the findings of a rule come in ascending lines, at most one for each line.
* `LineCheck.isEmpty_verdict`: a line check has nothing to say exactly if its trigger is on no line.
-/
namespace SourceAudit

open Fallible

structure Outcome.Belongs (o : Outcome) (file rule : String) (concern : Concern) : Prop where
  findings : ∀ f ∈ o.findings, f.file = file ∧ f.rule = rule ∧ f.category = concern
  passedChecks : ∀ c ∈ o.passedChecks, c.file = file ∧ c.rule = rule ∧ c.category = concern

theorem Outcome.belongs_empty (file rule : String) (concern : Concern) :
    ({} : Outcome).Belongs file rule concern := ⟨by simp, by simp⟩

theorem Outcome.belongs_combine {outcomes : List Outcome} {file rule : String} {concern : Concern}
    (h : ∀ o ∈ outcomes, o.Belongs file rule concern) : (combine outcomes).Belongs file rule concern := by
  constructor
  · intro f hf
    obtain ⟨o, ho, hf⟩ := List.mem_flatMap.1 hf
    exact (h o ho).findings f hf
  · intro c hc
    obtain ⟨o, ho, hc⟩ := List.mem_flatMap.1 hc
    exact (h o ho).passedChecks c hc

theorem Outcome.isEmpty_iff {o : Outcome} : o.isEmpty = true ↔ o.findings = [] ∧ o.passedChecks = [] := by
  simp [isEmpty]

theorem Outcome.isEmpty_eq_false_iff {o : Outcome} : o.isEmpty = false ↔ o.findings ≠ [] ∨ o.passedChecks ≠ [] := by
  rw [← Bool.not_eq_true, isEmpty_iff, not_and_or]

theorem Outcome.isEmpty_combine {outcomes : List Outcome} :
    (combine outcomes).isEmpty = true ↔ ∀ o ∈ outcomes, o.isEmpty = true := by
  simp only [isEmpty_iff, combine, List.flatMap_eq_nil_iff]
  exact ⟨fun h o ho => ⟨h.1 o ho, h.2 o ho⟩, fun h => ⟨fun o ho => (h o ho).1, fun o ho => (h o ho).2⟩⟩

/-! ## Line checks -/

theorem Text.pairwise_zipIdx_lines (text : List Char) : ((lines text).zipIdx 1).Pairwise fun x y => x.2 < y.2 := by
  rw [← List.pairwise_map, List.zipIdx_map_snd]
  exact List.pairwise_lt_range'

namespace LineCheck

def verdict (c : LineCheck) (file : String) (number : Nat) (line : List Char) : Outcome :=
  match c.trigger.find? line with
  | none => {}
  | some start =>
    if c.violates line then {
      findings := [{
        file, line := number, column := some (start + 1), message := c.findingMessage, category := c.concern
        severity := c.severity, rule := c.name, quickFix := c.quickFix }] }
    else {
      passedChecks := [{
        file, message := c.passMessage.getD "", category := c.concern, rule := c.name, line := some number }] }

theorem judge_eq_ok (c : LineCheck) {file : String} {number : Nat} (line : List Char) (hf : file ≠ "")
    (hn : 1 ≤ number) : c.judge file number line = .ok (c.verdict file number line) := by
  unfold judge verdict
  cases c.trigger.find? line with
  | none => rfl
  | some start =>
    have hline : ¬ ((number : Int) < 1) := by omega
    have hcolumn : ¬ ((start : Int) + 1 < 1) := by omega
    cases c.violates line
    · simp [PassedCheck.place, hf, hline, bind, Except.bind, pure, Except.pure]
    · simp only [Finding.place, hf, hline, hcolumn, if_false, if_true, bind, Except.bind, pure, Except.pure]
      simp

theorem judge_untriggered (c : LineCheck) (file : String) (number : Nat) {line : List Char}
    (h : c.trigger.occursIn line = false) : c.judge file number line = .ok {} := by
  unfold judge
  have hnone : c.trigger.find? line = none := by
    rw [← Option.isNone_iff_eq_none, ← Option.isSome_eq_false_iff]
    exact h
  rw [hnone]

theorem belongs_verdict (c : LineCheck) (file : String) (number : Nat) (line : List Char) :
    (c.verdict file number line).Belongs file c.name c.concern := by
  unfold verdict
  split
  · exact Outcome.belongs_empty ..
  · split <;> constructor <;> simp

/-- The findings of a verdict are on its line, and there are no two. -/
theorem lines_verdict (c : LineCheck) (file : String) (number : Nat) (line : List Char) :
    ((c.verdict file number line).findings.Pairwise fun f g => f.line < g.line) ∧
      ∀ f ∈ (c.verdict file number line).findings, f.line = number := by
  unfold verdict
  split
  · simp
  · split <;> simp

end LineCheck

/-! ## Adjacent markers -/

namespace AdjacentMarkers

def verdict (c : AdjacentMarkers) (file : String) (text : List Char) : Outcome :=
  match (Text.lines text).findIdx? c.first.occursIn, (Text.lines text).findIdx? c.second.occursIn with
  | some a, some b =>
    if ((a : Int) - b).natAbs ≤ c.window then {
      findings := [{
        file, line := min a b + 1, message := c.findingMessage, category := c.concern, severity := c.severity
        rule := c.name, quickFix := c.quickFix }] }
    else { passedChecks := [{ file, message := c.passMessage, category := c.concern, rule := c.name }] }
  | _, _ => {}

theorem evaluate_eq_ok (c : AdjacentMarkers) {file : String} (text : List Char) (hf : file ≠ "") :
    c.evaluate file text = .ok (c.verdict file text) := by
  simp only [evaluate, verdict]
  cases (Text.lines text).findIdx? c.first.occursIn with
  | none => rfl
  | some a =>
    cases (Text.lines text).findIdx? c.second.occursIn with
    | none => rfl
    | some b =>
      have hline : ¬ (((min a b + 1 : Nat) : Int) < 1) := by omega
      by_cases hw : ((a : Int) - b).natAbs ≤ c.window
      · simp only [hw, if_true, Finding.place, hf, hline, if_false, bind, Except.bind, pure, Except.pure,
          Int.toNat_natCast]
      · simp only [hw, if_false, PassedCheck.place, hf, bind, Except.bind, pure, Except.pure]

theorem belongs_verdict (c : AdjacentMarkers) (file : String) (text : List Char) :
    (c.verdict file text).Belongs file c.name c.concern := by
  unfold verdict
  split
  · split <;> constructor <;> simp
  · exact Outcome.belongs_empty ..

theorem lines_verdict (c : AdjacentMarkers) (file : String) (text : List Char) :
    (c.verdict file text).findings.Pairwise fun f g => f.line < g.line := by
  unfold verdict
  split
  · split <;> simp
  · simp

end AdjacentMarkers

/-! ## Rules -/

namespace Rule

def concern : Rule → Concern
  | line c => c.concern
  | adjacent c => c.concern

def verdict : Rule → String → List Char → Outcome
  | line c, file, text => Outcome.combine (((Text.lines text).zipIdx 1).map fun (l, n) => c.verdict file n l)
  | adjacent c, file, text => c.verdict file text

theorem evaluate_eq_ok (r : Rule) {file : String} (text : List Char) (hf : file ≠ "") :
    r.evaluate file text = .ok (r.verdict file text) := by
  cases r with
  | line c =>
    have hjudge : ∀ x ∈ (Text.lines text).zipIdx 1, c.judge file x.2 x.1 = .ok (c.verdict file x.2 x.1) :=
      fun x hx => c.judge_eq_ok x.1 hf (List.le_snd_of_mem_zipIdx hx)
    exact bind_eq_ok.2 ⟨_, mapM_eq_ok_map hjudge, rfl⟩
  | adjacent c => exact c.evaluate_eq_ok text hf

/-- On a named file rules give their verdicts, one after another. -/
theorem evaluateAll_eq_ok (rules : List Rule) {file : String} (text : List Char) (hf : file ≠ "") :
    evaluateAll rules file text = .ok (Outcome.combine (rules.map (·.verdict file text))) :=
  bind_eq_ok.2 ⟨_, mapM_eq_ok_map fun r _ => r.evaluate_eq_ok text hf, rfl⟩

/-- All that a rule emits bears the file it was asked about, its name and its concern. -/
theorem belongs_verdict (r : Rule) (file : String) (text : List Char) :
    (r.verdict file text).Belongs file r.name r.concern := by
  cases r with
  | line c =>
    refine Outcome.belongs_combine fun o ho => ?_
    obtain ⟨x, -, rfl⟩ := List.mem_map.1 ho
    exact c.belongs_verdict file x.2 x.1
  | adjacent c => exact c.belongs_verdict file text

/-- The findings of a rule come in ascending lines, at most one for each line. -/
theorem lines_verdict (r : Rule) (file : String) (text : List Char) :
    (r.verdict file text).findings.Pairwise fun f g => f.line < g.line := by
  cases r with
  | line c =>
    simp only [verdict, Outcome.combine, List.flatMap_map, List.pairwise_flatMap]
    constructor
    · intro x _
      exact (c.lines_verdict file x.2 x.1).1
    · refine (Text.pairwise_zipIdx_lines text).imp fun {x y} hxy f hf g hg => ?_
      rw [(c.lines_verdict file x.2 x.1).2 f hf, (c.lines_verdict file y.2 y.1).2 g hg]
      exact hxy
  | adjacent c => exact c.lines_verdict file text

end Rule

theorem LineCheck.isEmpty_verdict_line (c : LineCheck) (file : String) (number : Nat) (line : List Char) :
    (c.verdict file number line).isEmpty = !c.triggersOn line := by
  unfold verdict triggersOn Pattern.occursIn
  cases c.trigger.find? line with
  | none => rfl
  | some start => cases c.violates line <;> rfl

theorem LineCheck.isEmpty_verdict {c : LineCheck} {file : String} {text : List Char} :
    ((Rule.line c).verdict file text).isEmpty = true ↔ ∀ line ∈ Text.lines text, c.triggersOn line = false := by
  rw [← List.zipIdx_map_fst 1 (Text.lines text), List.forall_mem_map, Rule.verdict, Outcome.isEmpty_combine,
    List.forall_mem_map]
  simp only [isEmpty_verdict_line, Bool.not_eq_true']

end SourceAudit
