import SourceAudit.Catalogue.Authorization
import SourceAudit.Proofs.Pattern.Lines
import SourceAudit.Proofs.Rule.Emission

/-!
# The distance of two markers

A check on adjacent markers looks at two lines of a file only: the first that carries the one marker and the first that
carries the other. Its judgement is a matter of their distance, so it does not depend on which marker is called the
first, moves with the lines when others are put above them, and is settled once both markers have been seen.

Results:
* `Pattern.findIdx?_eq_some_iff`: the search through the lines finds the first line that carries a marker.
* `verdict_of_firstLines`, `verdict_of_missing`: the judgement, from the two lines.
* `verdict_cases`: what a check can come to, and when.
* `verdict_swap`, `verdict_above`, `verdict_below`: markers exchanged, lines put above the text, text put below it.
* `distance_judged`: all of this on a file with a name.
-/
namespace SourceAudit

/-! ## The first line that carries a marker -/

namespace Text

theorem lines_above {above : List (List Char)} (h : ∀ line ∈ above, '\n' ∉ line) (text : List Char) :
    lines (above.flatMap (· ++ ['\n']) ++ text) = above ++ lines text := by
  induction above with
  | nil => rfl
  | cons line above ih =>
    obtain ⟨hline, habove⟩ := List.forall_mem_cons.1 h
    have hcut : (line :: above).flatMap (· ++ ['\n']) ++ text =
        line ++ '\n' :: (above.flatMap (· ++ ['\n']) ++ text) := by simp
    rw [hcut, lines_append_newline, lines_of_notMem hline, ih habove]
    rfl

end Text

namespace Pattern

/-- The number, from zero, of the first line of a text on which a pattern occurs. -/
def FirstLine (p : Pattern) (text : List Char) (n : Nat) : Prop :=
  (∃ line, (Text.lines text)[n]? = some line ∧ p.occursIn line = true) ∧
    ∀ m < n, ∀ line, (Text.lines text)[m]? = some line → p.occursIn line = false

/-- The search through the lines finds the first line on which a pattern occurs. -/
theorem findIdx?_eq_some_iff {p : Pattern} {text : List Char} {n : Nat} :
    (Text.lines text).findIdx? p.occursIn = some n ↔ p.FirstLine text n := by
  rw [List.findIdx?_eq_some_iff_getElem]
  constructor
  · intro h
    obtain ⟨hn, hoccurs, hfirst⟩ := h
    refine ⟨⟨_, List.getElem?_eq_getElem hn, hoccurs⟩, fun m hm line hline => ?_⟩
    obtain ⟨_, rfl⟩ := List.getElem?_eq_some_iff.1 hline
    exact Bool.eq_false_iff.2 (hfirst m hm)
  · intro h
    obtain ⟨⟨line, hline, hoccurs⟩, hfirst⟩ := h
    obtain ⟨hn, rfl⟩ := List.getElem?_eq_some_iff.1 hline
    refine ⟨hn, hoccurs, fun m hm => ?_⟩
    exact Bool.eq_false_iff.1 (hfirst m hm _ (List.getElem?_eq_getElem (by omega)))

theorem exists_firstLine_iff {p : Pattern} {text : List Char} :
    (∃ n, p.FirstLine text n) ↔ ∃ line ∈ Text.lines text, p.occursIn line = true := by
  simp only [← findIdx?_eq_some_iff, ← Option.isSome_iff_exists, List.findIdx?_isSome, List.any_eq_true]

theorem findIdx?_eq_none_of {p : Pattern} {text : List Char} (h : ¬ ∃ n, p.FirstLine text n) :
    (Text.lines text).findIdx? p.occursIn = none := by
  rw [Option.eq_none_iff_forall_ne_some]
  exact fun n hn => h ⟨n, findIdx?_eq_some_iff.1 hn⟩

theorem findIdx?_above {p : Pattern} {above : List (List Char)}
    (habove : ∀ line ∈ above, '\n' ∉ line ∧ p.occursIn line = false) (text : List Char) :
    (Text.lines (above.flatMap (· ++ ['\n']) ++ text)).findIdx? p.occursIn =
      ((Text.lines text).findIdx? p.occursIn).map (· + above.length) := by
  have hnone : above.findIdx? p.occursIn = none :=
    List.findIdx?_eq_none_iff.2 fun line hline => (habove line hline).2
  rw [Text.lines_above (fun line hline => (habove line hline).1), List.findIdx?_append, hnone, Option.none_or]

theorem findIdx?_below {p : Pattern} {text : List Char} (h : ∃ line ∈ Text.lines text, p.occursIn line = true)
    (more : List Char) :
    (Text.lines (text ++ '\n' :: more)).findIdx? p.occursIn = (Text.lines text).findIdx? p.occursIn := by
  obtain ⟨n, hn⟩ := exists_firstLine_iff.2 h
  rw [Text.lines_append_newline, List.findIdx?_append, findIdx?_eq_some_iff.2 hn, Option.some_or]

end Pattern

/-! ## The judgement -/

namespace AdjacentMarkers

def findingAt (c : AdjacentMarkers) (file : String) (line : Nat) : Finding where
  file := file
  line := line
  column := none
  message := c.findingMessage
  category := c.concern
  severity := c.severity
  rule := c.name
  quickFix := c.quickFix

def passedCheck (c : AdjacentMarkers) (file : String) : PassedCheck where
  file := file
  message := c.passMessage
  category := c.concern
  rule := c.name
  line := none
  column := none

variable {c : AdjacentMarkers} {text : List Char} {a b : Nat}

theorem verdict_of_firstLines (file : String) (ha : c.first.FirstLine text a) (hb : c.second.FirstLine text b) :
    c.verdict file text =
      if ((a : Int) - b).natAbs ≤ c.window then { findings := [c.findingAt file (min a b + 1)] }
      else { passedChecks := [c.passedCheck file] } := by
  rw [verdict, Pattern.findIdx?_eq_some_iff.2 ha, Pattern.findIdx?_eq_some_iff.2 hb]
  rfl

theorem verdict_of_missing (file : String)
    (h : ¬ ((∃ a, c.first.FirstLine text a) ∧ ∃ b, c.second.FirstLine text b)) : c.verdict file text = {} := by
  rw [not_and_or] at h
  rcases h with h | h
  · rw [verdict, Pattern.findIdx?_eq_none_of h]
  · rw [verdict, Pattern.findIdx?_eq_none_of h]
    cases (Text.lines text).findIdx? c.first.occursIn <;> rfl

/-- What a check can come to, and when. -/
theorem verdict_cases (c : AdjacentMarkers) (file : String) (text : List Char) :
    (∃ a b, c.first.FirstLine text a ∧ c.second.FirstLine text b ∧ ((a : Int) - b).natAbs ≤ c.window ∧
      c.verdict file text = { findings := [c.findingAt file (min a b + 1)] }) ∨
    (∃ a b, c.first.FirstLine text a ∧ c.second.FirstLine text b ∧ c.window < ((a : Int) - b).natAbs ∧
      c.verdict file text = { passedChecks := [c.passedCheck file] }) ∨
    ¬ ((∃ a, c.first.FirstLine text a) ∧ ∃ b, c.second.FirstLine text b) ∧ c.verdict file text = {} := by
  by_cases hboth : (∃ a, c.first.FirstLine text a) ∧ ∃ b, c.second.FirstLine text b
  · obtain ⟨⟨a, ha⟩, b, hb⟩ := hboth
    have hverdict := verdict_of_firstLines file ha hb
    by_cases hwindow : ((a : Int) - b).natAbs ≤ c.window
    · rw [if_pos hwindow] at hverdict
      exact .inl ⟨a, b, ha, hb, hwindow, hverdict⟩
    · rw [if_neg hwindow] at hverdict
      exact .inr (.inl ⟨a, b, ha, hb, by omega, hverdict⟩)
  · exact .inr (.inr ⟨hboth, verdict_of_missing file hboth⟩)

theorem verdict_eq_finding_iff {file : String} {n : Nat} :
    c.verdict file text = { findings := [c.findingAt file n] } ↔
      ∃ a b, c.first.FirstLine text a ∧ c.second.FirstLine text b ∧ ((a : Int) - b).natAbs ≤ c.window ∧
        n = min a b + 1 := by
  constructor
  · intro h
    rcases c.verdict_cases file text with ⟨a, b, ha, hb, hwindow, hverdict⟩ | ⟨_, _, _, _, _, hverdict⟩ | ⟨_, hverdict⟩
    · have hline : findingAt c file n = findingAt c file (min a b + 1) := by simpa using h.symm.trans hverdict
      exact ⟨a, b, ha, hb, hwindow, congrArg Finding.line hline⟩
    · cases h.symm.trans hverdict
    · cases h.symm.trans hverdict
  · intro h
    obtain ⟨a, b, ha, hb, hwindow, hn⟩ := h
    rw [verdict_of_firstLines file ha hb, if_pos hwindow, hn]

theorem verdict_eq_passedCheck_iff {file : String} :
    c.verdict file text = { passedChecks := [c.passedCheck file] } ↔
      ∃ a b, c.first.FirstLine text a ∧ c.second.FirstLine text b ∧ c.window < ((a : Int) - b).natAbs := by
  constructor
  · intro h
    rcases c.verdict_cases file text with ⟨_, _, _, _, _, hverdict⟩ | ⟨a, b, ha, hb, hwindow, _⟩ | ⟨_, hverdict⟩
    · cases h.symm.trans hverdict
    · exact ⟨a, b, ha, hb, hwindow⟩
    · cases h.symm.trans hverdict
  · intro h
    obtain ⟨a, b, ha, hb, hwindow⟩ := h
    rw [verdict_of_firstLines file ha hb, if_neg (by omega)]

theorem verdict_eq_empty_iff {file : String} :
    c.verdict file text = {} ↔ ¬ ((∃ a, c.first.FirstLine text a) ∧ ∃ b, c.second.FirstLine text b) := by
  refine ⟨fun h => ?_, verdict_of_missing file⟩
  rcases c.verdict_cases file text with ⟨_, _, _, _, _, hverdict⟩ | ⟨_, _, _, _, _, hverdict⟩ | ⟨hmissing, _⟩
  · cases h.symm.trans hverdict
  · cases h.symm.trans hverdict
  · exact hmissing

theorem length_verdict_le_one (c : AdjacentMarkers) (file : String) (text : List Char) :
    (c.verdict file text).findings.length + (c.verdict file text).passedChecks.length ≤ 1 := by
  rcases c.verdict_cases file text with ⟨_, _, _, _, _, hverdict⟩ | ⟨_, _, _, _, _, hverdict⟩ | ⟨_, hverdict⟩ <;>
    simp [hverdict]

/-! ## Markers exchanged, lines above and text below -/

/-- It makes no difference which marker is called the first. -/
theorem verdict_swap (c : AdjacentMarkers) (file : String) (text : List Char) :
    { c with first := c.second, second := c.first }.verdict file text = c.verdict file text := by
  simp only [verdict]
  cases (Text.lines text).findIdx? c.first.occursIn with
  | none => cases (Text.lines text).findIdx? c.second.occursIn <;> rfl
  | some a =>
    cases (Text.lines text).findIdx? c.second.occursIn with
    | none => rfl
    | some b =>
      have hdistance : ((b : Int) - a).natAbs = ((a : Int) - b).natAbs := by omega
      simp only [hdistance, Nat.min_comm b a]

/-- Lines without a marker, put above a text, move the finding down and change nothing else. -/
theorem verdict_above {above : List (List Char)} (file : String)
    (habove : ∀ line ∈ above, '\n' ∉ line ∧ c.first.occursIn line = false ∧ c.second.occursIn line = false)
    (text : List Char) :
    c.verdict file (above.flatMap (· ++ ['\n']) ++ text) =
      { c.verdict file text with
        findings := (c.verdict file text).findings.map fun f => { f with line := f.line + above.length } } := by
  have hfirst := Pattern.findIdx?_above (fun line hline => ⟨(habove line hline).1, (habove line hline).2.1⟩) text
  have hsecond := Pattern.findIdx?_above (fun line hline => ⟨(habove line hline).1, (habove line hline).2.2⟩) text
  simp only [verdict, hfirst, hsecond]
  cases (Text.lines text).findIdx? c.first.occursIn with
  | none => rfl
  | some a =>
    cases (Text.lines text).findIdx? c.second.occursIn with
    | none => rfl
    | some b =>
      have hdistance : (((a + above.length : Nat) : Int) - (b + above.length : Nat)).natAbs =
          ((a : Int) - b).natAbs := by omega
      have hline : min (a + above.length) (b + above.length) + 1 = min a b + 1 + above.length := by omega
      simp only [Option.map_some, hdistance, hline]
      split <;> rfl

/-- Once both markers have been seen, what follows changes nothing. -/
theorem verdict_below (file : String) (hfirst : ∃ line ∈ Text.lines text, c.first.occursIn line = true)
    (hsecond : ∃ line ∈ Text.lines text, c.second.occursIn line = true) (more : List Char) :
    c.verdict file (text ++ '\n' :: more) = c.verdict file text := by
  simp only [verdict, Pattern.findIdx?_below hfirst, Pattern.findIdx?_below hsecond]

/-- **The judgement on two markers.** On a file with a name a check says one thing at most. Let the first lines that
carry its markers have the numbers `a` and `b`, from zero. It is a finding, at line `min a b + 1`, exactly if both are
there and no further apart than the window, whatever integer that is; one passed check for the whole file exactly if
both are there and further apart; and nothing exactly if one is missing. With the markers exchanged it is the same. With
lines put above the text that carry neither marker, the finding is so many lines further down and nothing else is
changed. And if both markers are on lines of the text, a newline and more text behind it change nothing. -/
theorem distance_judged (c : AdjacentMarkers) {file : String} (hfile : file ≠ "") (text : List Char) :
    ∃ o, c.evaluate file text = .ok o ∧ o.findings.length + o.passedChecks.length ≤ 1 ∧
      (∀ n, o = { findings := [c.findingAt file n] } ↔
        ∃ a b, c.first.FirstLine text a ∧ c.second.FirstLine text b ∧ ((a : Int) - b).natAbs ≤ c.window ∧
          n = min a b + 1) ∧
      (o = { passedChecks := [c.passedCheck file] } ↔
        ∃ a b, c.first.FirstLine text a ∧ c.second.FirstLine text b ∧ c.window < ((a : Int) - b).natAbs) ∧
      (o = {} ↔ ¬ ((∃ a, c.first.FirstLine text a) ∧ ∃ b, c.second.FirstLine text b)) ∧
      { c with first := c.second, second := c.first }.evaluate file text = .ok o ∧
      (∀ above : List (List Char),
        (∀ line ∈ above, '\n' ∉ line ∧ c.first.occursIn line = false ∧ c.second.occursIn line = false) →
        c.evaluate file (above.flatMap (· ++ ['\n']) ++ text) =
          .ok { o with findings := o.findings.map fun f => { f with line := f.line + above.length } }) ∧
      ((∃ line ∈ Text.lines text, c.first.occursIn line = true) →
        (∃ line ∈ Text.lines text, c.second.occursIn line = true) →
        ∀ more, c.evaluate file (text ++ '\n' :: more) = .ok o) := by
  refine ⟨c.verdict file text, c.evaluate_eq_ok text hfile, c.length_verdict_le_one file text,
    fun n => verdict_eq_finding_iff, verdict_eq_passedCheck_iff, verdict_eq_empty_iff, ?_, fun above habove => ?_,
    fun hfirst hsecond more => ?_⟩
  · rw [evaluate_eq_ok _ text hfile, verdict_swap]
  · rw [evaluate_eq_ok c _ hfile, verdict_above file habove]
  · rw [evaluate_eq_ok c _ hfile, verdict_below file hfirst hsecond]

/-- The second marker in front of the first, a line above both, and the first marker once more below. -/
theorem distance_judged_mixedFile :
    let c := Catalogue.Authorization.separation
    let file := "auth.py"
    let text := "authorize(u)\nauthenticate(u)".toList
    file ≠ "" ∧ (∀ line ∈ ["import u".toList],
      '\n' ∉ line ∧ c.first.occursIn line = false ∧ c.second.occursIn line = false) ∧
    c.evaluate file text = .ok { findings := [c.findingAt file 1] } ∧
    c.evaluate file ("import u\n".toList ++ text) = .ok { findings := [c.findingAt file 2] } ∧
    c.evaluate file (text ++ "\nauthenticate(v)".toList) = .ok { findings := [c.findingAt file 1] } := by
  intro c file text
  have hfile : file ≠ "" := by decide
  have hfirst : c.first.FirstLine text 1 := Pattern.findIdx?_eq_some_iff.1 rfl
  have hsecond : c.second.FirstLine text 0 := Pattern.findIdx?_eq_some_iff.1 rfl
  have habove : ∀ line ∈ ["import u".toList],
      '\n' ∉ line ∧ c.first.occursIn line = false ∧ c.second.occursIn line = false := by
    rw [List.forall_mem_singleton]
    exact ⟨by decide, rfl, rfl⟩
  obtain ⟨o, ho, -, hfinding, -, -, -, hmoves, hsettled⟩ := distance_judged c hfile text
  have hfound : o = { findings := [c.findingAt file 1] } := (hfinding 1).2 ⟨1, 0, hfirst, hsecond, by decide, rfl⟩
  have hmoved := hmoves ["import u".toList] habove
  have hstays := hsettled (Pattern.exists_firstLine_iff.1 ⟨1, hfirst⟩) (Pattern.exists_firstLine_iff.1 ⟨0, hsecond⟩)
    "authenticate(v)".toList
  rw [hfound] at ho hmoved hstays
  exact ⟨hfile, habove, ho, hmoved, hstays⟩

end AdjacentMarkers
end SourceAudit
