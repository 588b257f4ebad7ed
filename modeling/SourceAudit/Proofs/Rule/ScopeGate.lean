import SourceAudit.Audit.Evaluation
import SourceAudit.Proofs.Pattern.Lines
import SourceAudit.Proofs.Rule.Emission

/-!
# The scope of the sanitization rules

A concern without a subject of its own looks into a file only if the trigger of one of its rules occurs somewhere in
the text. The rules themselves go line by line. No trigger of the sanitization rules refuses newlines around it: a
call of `eval` must not stand behind a word character or a dot, and a newline is neither. So what a rule finds on a line
the question about the whole text has found before, and nothing is lost by asking.

Results:
* `LineCheck.evaluate_of_not_triggersOn`: a check whose trigger does not occur in a text emits nothing on it.
* `scopeGate_lossless`: evaluating a file behind the question gives what all rules of its language find in it.
-/
namespace SourceAudit

open Disk (Candidate)
open Fallible

/-- A check whose trigger does not occur in a text emits nothing on it. -/
theorem LineCheck.evaluate_of_not_triggersOn {c : LineCheck} (hc : c.trigger.allowsNewline = true) (file : String)
    {text : List Char} (h : c.triggersOn text = false) : c.evaluate file text = .ok {} := by
  have hline : ∀ line ∈ Text.lines text, c.trigger.occursIn line = false := by
    intro line hmem
    rw [Bool.eq_false_iff]
    intro ho
    have htext := Pattern.occursIn_of_mem_lines hc hmem ho
    rw [triggersOn, htext] at h
    cases h
  have hjudge : ∀ x ∈ (Text.lines text).zipIdx 1, c.judge file x.2 x.1 = .ok ({} : Outcome) :=
    fun x hx => c.judge_untriggered file x.2 (hline x.1 (List.fst_mem_of_mem_zipIdx hx))
  refine bind_eq_ok.2 ⟨_, mapM_eq_ok_map hjudge, ?_⟩
  simp [Outcome.combine, pure, Except.pure]

namespace Catalogue.Sanitization

/-- No trigger of the sanitization rules refuses newlines around it. -/
theorem allowsNewline_trigger :
    ∀ c ∈ pythonRules ++ phpRules ++ javaRules, c.trigger.allowsNewline = true := by
  decide +kernel

theorem evaluateAll_of_not_triggersOn {selected : List Rule} (hsub : ∀ r ∈ selected, r ∈ rules) (file : String)
    {text : List Char} (h : selected.any (·.triggersOn text) = false) :
    Rule.evaluateAll selected file text = .ok {} := by
  have heval : ∀ r ∈ selected, r.evaluate file text = .ok ({} : Outcome) := by
    intro r hr
    obtain ⟨c, hc, rfl⟩ := List.mem_map.1 (hsub r hr)
    have htrig : c.triggersOn text = false := by
      simpa [Rule.triggersOn] using List.any_eq_false.1 h (.line c) hr
    exact LineCheck.evaluate_of_not_triggersOn (allowsNewline_trigger c hc) file htrig
  refine bind_eq_ok.2 ⟨_, mapM_eq_ok_map heval, ?_⟩
  simp [Outcome.combine, pure, Except.pure]

end Catalogue.Sanitization

/-- What the rules found in a file by themselves. -/
def Evaluation.ownOutcome : Evaluation → Outcome
  | .judged _ outcome => outcome
  | _ => {}

/-- **The scope gate loses nothing.** Where the sanitization profile does not observe its subject in a text, all rules
of the language together emit nothing on it; so a file that is not left to the linter yields what all rules of its
language find in it, whether the profile observes its subject there or not. -/
theorem scopeGate_lossless (linter : Option Linter) (language : Option Language) (text : List Char) :
    let p := Registry.profileOf linter .sanitization
    (p.observes (p.rulesFor language) text = false →
      ∀ file, Rule.evaluateAll (p.rulesFor language) file text = .ok {}) ∧
    ∀ c : Candidate, Language.ofPath? c.path = language → p.delegates language = false →
      (p.evaluateText c text).map Evaluation.ownOutcome =
        Rule.evaluateAll (p.rulesFor language) c.relative text := by
  intro p
  have hclosed : p.observes (p.rulesFor language) text = false →
      ∀ file, Rule.evaluateAll (p.rulesFor language) file text = .ok {} :=
    fun h file => Catalogue.Sanitization.evaluateAll_of_not_triggersOn
      (fun r hr => (List.mem_filter.1 hr).1) file h
  refine ⟨hclosed, ?_⟩
  intro c hl hd
  simp only [Profile.evaluateText, hl, hd, Bool.false_eq_true, if_false]
  cases hrules : (p.rulesFor language).isEmpty with
  | true =>
    rw [List.isEmpty_iff.1 hrules]
    rfl
  | false =>
    cases hobs : p.observes (p.rulesFor language) text with
    | false =>
      rw [hclosed hobs c.relative]
      rfl
    | true =>
      cases Rule.evaluateAll (p.rulesFor language) c.relative text <;> rfl

/-- Calls that only look like sinks keep the gate closed, and the rules find nothing. One at the beginning of a line,
behind a newline, opens it. -/
theorem scopeGate_lossless_methodCalls :
    let p := Registry.profileOf none .sanitization
    let text := "df.eval(query)\nliteral_eval (s)\ncursor.execute(\nname)".toList
    p.observes (p.rulesFor (some .python)) text = false ∧
      p.observes (p.rulesFor (some .python)) (text ++ "\neval(s)".toList) = true ∧
      Rule.evaluateAll (p.rulesFor (some .python)) "src/a.py" text = .ok {} ∧
      Language.ofPath? ⟨"/", ["src", "a.py"]⟩ = some .python ∧ p.delegates (some .python) = false ∧
      (p.evaluateText ⟨⟨"/", ["src", "a.py"]⟩, "src/a.py"⟩ text).map Evaluation.ownOutcome =
        Rule.evaluateAll (p.rulesFor (some .python)) "src/a.py" text := by
  intro p text
  have hobs : p.observes (p.rulesFor (some .python)) text = false := by decide +kernel
  have hlang : Language.ofPath? ⟨"/", ["src", "a.py"]⟩ = some .python := by decide +kernel
  have hlocal : p.delegates (some .python) = false := rfl
  obtain ⟨hclosed, hgate⟩ := scopeGate_lossless none (some .python) text
  exact ⟨hobs, by decide +kernel, hclosed hobs "src/a.py", hlang, hlocal,
    hgate ⟨⟨"/", ["src", "a.py"]⟩, "src/a.py"⟩ hlang hlocal⟩

end SourceAudit
