import SourceAudit.Profile
import SourceAudit.Proofs.Fallible
import SourceAudit.Proofs.Pattern.LineEnds

/-!
# Rules and line ends

The same source may be checked out with a newline at the end of each line, or with a carriage return and a newline. The
rules look at the text as it is, so the carriage return is there for their patterns to see, both on the single lines and
in the whole text. No pattern of the catalogue notices it, and so no verdict depends on it.

Results:
* `LineCheck.evaluate_withReturns`, `AdjacentMarkers.evaluate_withReturns`: a check whose patterns ignore returns judges
  both texts alike.
* `Registry.ignoresReturns_profileOf`: no pattern of a standard profile notices a return.
* `lineEnds_irrelevant`: with either kind of line ends a profile observes the same, the same rules are triggered and
  they find the same.
-/
namespace SourceAudit

open Text (Returned withReturns)

/-! ## Line checks -/

namespace LineCheck

/-- Whether no pattern of a check notices a carriage return at a line end. -/
def ignoresReturns (c : LineCheck) : Bool :=
  c.trigger.ignoresReturns false && c.requires.all (·.ignoresReturns false) && c.forbids.all (·.ignoresReturns false)

variable {c : LineCheck}

theorem violates_returned (hc : c.ignoresReturns = true) {line line' : List Char} (hline : Returned line line') :
    c.violates line' = c.violates line := by
  simp only [ignoresReturns, Bool.and_eq_true] at hc
  have hsame : ∀ o : Option Pattern, o.all (·.ignoresReturns false) = true → ∀ test : Bool → Bool,
      o.any (fun p => test (p.occursIn line')) = o.any (fun p => test (p.occursIn line)) := by
    intro o ho test
    cases o with
    | none => rfl
    | some p => rw [Option.any_some, Option.any_some, Pattern.occursIn_returned ho hline]
  have hrequires := hsame c.requires hc.1.2 fun found => !found
  have hforbids := hsame c.forbids hc.2 fun found => found
  simp only [violates, hrequires, hforbids]

theorem judge_returned (hc : c.ignoresReturns = true) {line line' : List Char} (hline : Returned line line')
    (honly : '\n' ∉ line) (file : String) (number : Nat) : c.judge file number line' = c.judge file number line := by
  have htrigger : c.trigger.ignoresReturns false = true := by
    simp only [ignoresReturns, Bool.and_eq_true] at hc
    exact hc.1.1
  rw [judge, judge, Pattern.find?_returned htrigger hline honly, violates_returned hc hline]

/-- A check whose patterns ignore returns judges a text alike with and without them. -/
theorem evaluate_withReturns (hc : c.ignoresReturns = true) (file : String) (text : List Char) :
    c.evaluate file (withReturns text) = c.evaluate file text := by
  have hlines : ∀ number,
      ((Text.lines (withReturns text)).zipIdx number).mapM (fun x => c.judge file x.2 x.1) =
        ((Text.lines text).zipIdx number).mapM fun x => c.judge file x.2 x.1 := by
    have hpairs := Text.lines_withReturns text
    generalize Text.lines text = lines, Text.lines (withReturns text) = lines' at hpairs
    induction hpairs with
    | nil => exact fun _ => rfl
    | cons hline _ ih =>
      intro number
      rw [List.zipIdx_cons, List.zipIdx_cons, List.mapM_cons, List.mapM_cons, judge_returned hc hline.2 hline.1, ih]
  simp only [evaluate]
  rw [hlines 1]

end LineCheck

/-! ## Adjacent markers -/

namespace AdjacentMarkers

/-- Whether neither marker notices a carriage return at a line end. -/
def ignoresReturns (c : AdjacentMarkers) : Bool := c.first.ignoresReturns false && c.second.ignoresReturns false

theorem findIdx?_withReturns {p : Pattern} (hp : p.ignoresReturns false = true) (text : List Char) :
    (Text.lines (withReturns text)).findIdx? p.occursIn = (Text.lines text).findIdx? p.occursIn := by
  have hpairs := Text.lines_withReturns text
  generalize Text.lines text = lines, Text.lines (withReturns text) = lines' at hpairs
  induction hpairs with
  | nil => rfl
  | cons hline _ ih =>
    rw [List.findIdx?_cons, List.findIdx?_cons, ih, Pattern.occursIn_returned hp hline.2]

/-- A check whose markers ignore returns judges a text alike with and without them. -/
theorem evaluate_withReturns {c : AdjacentMarkers} (hc : c.ignoresReturns = true) (file : String) (text : List Char) :
    c.evaluate file (withReturns text) = c.evaluate file text := by
  simp only [ignoresReturns, Bool.and_eq_true] at hc
  simp only [evaluate, findIdx?_withReturns hc.1, findIdx?_withReturns hc.2]

end AdjacentMarkers

/-! ## Rules and profiles -/

namespace Rule

/-- Whether no pattern of a rule notices a carriage return at a line end. -/
def ignoresReturns : Rule → Bool
  | line c => c.ignoresReturns
  | adjacent c => c.ignoresReturns

variable {r : Rule}

theorem triggersOn_withReturns (hr : r.ignoresReturns = true) (text : List Char) :
    r.triggersOn (withReturns text) = r.triggersOn text := by
  cases r with
  | line c =>
    simp only [ignoresReturns, LineCheck.ignoresReturns, Bool.and_eq_true] at hr
    exact Pattern.occursIn_withReturns hr.1.1 text
  | adjacent c =>
    simp only [ignoresReturns, AdjacentMarkers.ignoresReturns, Bool.and_eq_true] at hr
    simp only [triggersOn, AdjacentMarkers.triggersOn, Pattern.occursIn_withReturns hr.1,
      Pattern.occursIn_withReturns hr.2]

theorem evaluate_withReturns (hr : r.ignoresReturns = true) (file : String) (text : List Char) :
    r.evaluate file (withReturns text) = r.evaluate file text := by
  cases r with
  | line c => exact LineCheck.evaluate_withReturns hr file text
  | adjacent c => exact AdjacentMarkers.evaluate_withReturns hr file text

end Rule

/-- Whether neither the subject nor a rule of a profile notices a carriage return at a line end. -/
def Profile.ignoresReturns (p : Profile) : Bool :=
  p.subject.all (·.ignoresReturns false) && p.rules.all (·.ignoresReturns)

/-- No pattern of a standard profile notices a carriage return at a line end. -/
theorem Registry.ignoresReturns_profileOf (linter : Option Linter) (concern : Concern) :
    (profileOf linter concern).ignoresReturns = true := by
  -- The linter has no say in it.
  have hlinter : (profileOf linter concern).ignoresReturns = (profileOf none concern).ignoresReturns := by
    cases concern <;> rfl
  rw [hlinter]
  cases concern <;> decide +kernel

/-- **Line ends do not matter to the rules.** With a carriage return put in front of each newline of a text, a profile
observes its subject as before, the same of its rules are triggered, and the rules that look at files of a language find
the same: the same findings, at the same lines and columns, and the same passed checks. -/
theorem lineEnds_irrelevant (linter : Option Linter) (concern : Concern) (language : Option Language) (file : String)
    (text : List Char) :
    let p := Registry.profileOf linter concern
    let rules := p.rulesFor language
    p.observes rules (withReturns text) = p.observes rules text ∧
      p.rules.filter (·.triggersOn (withReturns text)) = p.rules.filter (·.triggersOn text) ∧
      Rule.evaluateAll rules file (withReturns text) = Rule.evaluateAll rules file text := by
  intro p rules
  have hp : p.ignoresReturns = true := Registry.ignoresReturns_profileOf linter concern
  simp only [Profile.ignoresReturns, Bool.and_eq_true, List.all_eq_true] at hp
  obtain ⟨hsubject, hall⟩ := hp
  have hrules : ∀ r ∈ rules, r.ignoresReturns = true := fun r hr => hall r (List.mem_filter.1 hr).1
  refine ⟨?_, ?_, ?_⟩
  · unfold Profile.observes
    cases hs : p.subject with
    | none =>
      rw [Bool.eq_iff_iff, List.any_eq_true, List.any_eq_true]
      exact exists_congr fun r => and_congr_right fun hr => by rw [Rule.triggersOn_withReturns (hrules r hr)]
    | some subject =>
      rw [hs] at hsubject
      exact Pattern.occursIn_withReturns hsubject text
  · exact List.filter_congr fun r hr => Rule.triggersOn_withReturns (hall r hr) text
  · unfold Rule.evaluateAll
    rw [Fallible.mapM_congr fun r hr => Rule.evaluate_withReturns (hrules r hr) file text]

end SourceAudit
