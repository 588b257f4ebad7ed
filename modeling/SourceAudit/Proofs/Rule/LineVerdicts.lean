import SourceAudit.Profile
import SourceAudit.Proofs.Pattern.LineEnds
import SourceAudit.Proofs.Rule.Emission

/-!
# One verdict for each triggered line

A line check speaks about the lines on which its trigger occurs, and about each of them once: with a finding if the
line violates the check, with a passed check otherwise. The findings and the passed checks are two lists, each in the
order of the lines; together they hold the number of every triggered line, and no number stands in both.

A finding also names a column, one more than the place where the leftmost match starts. A pattern may match the empty
piece at the end of a line, and the column would then lie behind it; the triggers of all catalogues need a character.

Results:
* `Text.mem_numbersOf`, `Text.pairwise_numbersOf`: the lines that satisfy a condition, in order.
* `LineCheck.lines_findings`, `LineCheck.lines_passedChecks`: what a check finds, and what passes it.
* `Pattern.lt_length_of_find?`: a match that needs a character starts in front of one.
* `LineCheck.one_verdict_per_triggered_line`: each triggered line has one verdict.
-/
namespace SourceAudit

/-! ## Numbers of lines -/

namespace Text

def IsLine (text : List Char) (n : Nat) (line : List Char) : Prop := 1 ≤ n ∧ (lines text)[n - 1]? = some line

instance (text : List Char) (n : Nat) (line : List Char) : Decidable (IsLine text n line) :=
  inferInstanceAs (Decidable (_ ∧ _))

theorem isLine_iff {text line : List Char} {n : Nat} : IsLine text n line ↔ (line, n) ∈ (lines text).zipIdx 1 :=
  List.mk_mem_zipIdx_iff_le_and_getElem?_sub.symm

theorem IsLine.unique {text line line' : List Char} {n : Nat} (h : IsLine text n line) (h' : IsLine text n line') :
    line = line' :=
  Option.some.inj (h.2.symm.trans h'.2)

theorem exists_isLine {text line : List Char} (h : line ∈ lines text) : ∃ n, IsLine text n line := by
  obtain ⟨i, hi⟩ := List.mem_iff_getElem?.1 h
  exact ⟨i + 1, Nat.le_add_left 1 i, hi⟩

/-- The numbers of the lines that satisfy a condition. -/
def numbersOf (p : List Char → Bool) (text : List Char) : List Nat :=
  ((lines text).zipIdx 1).filterMap fun x => if p x.1 then some x.2 else none

theorem mem_numbersOf {p : List Char → Bool} {text : List Char} {n : Nat} :
    n ∈ numbersOf p text ↔ ∃ line, IsLine text n line ∧ p line = true := by
  unfold numbersOf
  rw [List.mem_filterMap]
  constructor
  · intro ⟨x, hx, hn⟩
    obtain ⟨hp, hn⟩ := Option.ite_none_right_eq_some.1 hn
    obtain rfl := Option.some.inj hn
    exact ⟨x.1, isLine_iff.2 hx, hp⟩
  · intro ⟨line, hline, hp⟩
    exact ⟨(line, n), isLine_iff.1 hline, if_pos hp⟩

theorem pairwise_numbersOf (p : List Char → Bool) (text : List Char) : (numbersOf p text).Pairwise (· < ·) := by
  apply List.pairwise_filterMap.2
  refine (pairwise_zipIdx_lines text).imp fun {x y} hxy n hn m hm => ?_
  obtain rfl := Option.some.inj (Option.ite_none_right_eq_some.1 hn).2
  obtain rfl := Option.some.inj (Option.ite_none_right_eq_some.1 hm).2
  exact hxy

end Text

/-! ## Columns -/

/-- A match that needs a character starts in front of one. -/
theorem Pattern.lt_length_of_find? {p : Pattern} (hp : p.beginsWithInk false = true) {line : List Char} {n : Nat}
    (h : p.find? line = some n) : n < line.length := by
  obtain ⟨⟨hle, hstarts⟩, -⟩ := find?_eq_some_iff.1 h
  apply Nat.lt_of_le_of_ne hle
  rintro rfl
  have hink : Goal.NeedsInk (p.run fun _ _ => true) := run_needsInk hp nofun
  rw [startsAfter, List.drop_length] at hstarts
  exact absurd hstarts (Bool.eq_false_iff.1 (hink _).1)

/-! ## What a check finds -/

namespace LineCheck

theorem violates_iff {c : LineCheck} {line : List Char} :
    c.violates line = true ↔
      (∃ p, c.requires = some p ∧ p.occursIn line = false) ∨ (∃ p, c.forbids = some p ∧ p.occursIn line = true) ∨
        c.requires = none ∧ c.forbids = none := by
  unfold violates isConditional
  cases c.requires <;> cases c.forbids <;> simp

theorem findings_verdict (c : LineCheck) (file : String) (number : Nat) (line : List Char) :
    (c.verdict file number line).findings.map (·.line) =
      (if c.triggersOn line && c.violates line then some number else none).toList := by
  unfold verdict triggersOn Pattern.occursIn
  cases c.trigger.find? line with
  | none => rfl
  | some start => cases c.violates line <;> rfl

theorem passedChecks_verdict (c : LineCheck) (file : String) (number : Nat) (line : List Char) :
    (c.verdict file number line).passedChecks.map (·.line) =
      ((if c.triggersOn line && !c.violates line then some number else none).toList).map some := by
  unfold verdict triggersOn Pattern.occursIn
  cases c.trigger.find? line with
  | none => rfl
  | some start => cases c.violates line <;> rfl

def findingLines (c : LineCheck) (text : List Char) : List Nat :=
  Text.numbersOf (fun line => c.triggersOn line && c.violates line) text

def passedLines (c : LineCheck) (text : List Char) : List Nat :=
  Text.numbersOf (fun line => c.triggersOn line && !c.violates line) text

theorem mem_findingLines {c : LineCheck} {text : List Char} {n : Nat} :
    n ∈ c.findingLines text ↔ ∃ line, Text.IsLine text n line ∧ c.triggersOn line = true ∧ c.violates line = true := by
  simp [findingLines, Text.mem_numbersOf]

theorem mem_passedLines {c : LineCheck} {text : List Char} {n : Nat} :
    n ∈ c.passedLines text ↔ ∃ line, Text.IsLine text n line ∧ c.triggersOn line = true ∧ c.violates line = false := by
  simp [passedLines, Text.mem_numbersOf]

theorem lines_findings (c : LineCheck) (file : String) (text : List Char) :
    ((Rule.line c).verdict file text).findings.map (·.line) = c.findingLines text := by
  simp only [Rule.verdict, Outcome.combine, List.map_flatMap, List.flatMap_map, findings_verdict, findingLines,
    Text.numbersOf, List.filterMap_eq_flatMap_toList]

theorem lines_passedChecks (c : LineCheck) (file : String) (text : List Char) :
    ((Rule.line c).verdict file text).passedChecks.map (·.line) = (c.passedLines text).map some := by
  simp only [Rule.verdict, Outcome.combine, List.map_flatMap, List.flatMap_map, passedChecks_verdict, passedLines,
    Text.numbersOf, List.filterMap_eq_flatMap_toList]

theorem mem_lines_iff {c : LineCheck} {text : List Char} {n : Nat} :
    n ∈ c.findingLines text ∨ n ∈ c.passedLines text ↔ ∃ line, Text.IsLine text n line ∧ c.triggersOn line = true := by
  rw [mem_findingLines, mem_passedLines]
  constructor
  · intro h
    rcases h with ⟨line, hline, htrigger, -⟩ | ⟨line, hline, htrigger, -⟩
    · exact ⟨line, hline, htrigger⟩
    · exact ⟨line, hline, htrigger⟩
  · intro ⟨line, hline, htrigger⟩
    cases hviolates : c.violates line with
    | true => exact .inl ⟨line, hline, htrigger, hviolates⟩
    | false => exact .inr ⟨line, hline, htrigger, hviolates⟩

theorem not_mem_passedLines {c : LineCheck} {text : List Char} {n : Nat} (h : n ∈ c.findingLines text) :
    n ∉ c.passedLines text := by
  intro h'
  obtain ⟨line, hline, -, hviolates⟩ := mem_findingLines.1 h
  obtain ⟨line', hline', -, hpasses⟩ := mem_passedLines.1 h'
  rw [hline.unique hline', hpasses] at hviolates
  cases hviolates

theorem mem_findingLines_iff {c : LineCheck} {text line : List Char} {n : Nat} (hline : Text.IsLine text n line)
    (htrigger : c.triggersOn line = true) : n ∈ c.findingLines text ↔ c.violates line = true := by
  rw [mem_findingLines]
  constructor
  · intro ⟨line', hline', _, hviolates⟩
    rwa [hline.unique hline']
  · intro hviolates
    exact ⟨line, hline, htrigger, hviolates⟩

theorem column_of_mem {c : LineCheck} {file : String} {text : List Char} {f : Finding}
    (hf : f ∈ ((Rule.line c).verdict file text).findings) :
    ∃ line start, Text.IsLine text f.line line ∧ c.trigger.find? line = some start ∧ f.column = some (start + 1) := by
  obtain ⟨o, ho, hf⟩ := List.mem_flatMap.1 hf
  obtain ⟨x, hx, rfl⟩ := List.mem_map.1 ho
  have hline : f.line = x.2 := (c.lines_verdict file x.2 x.1).2 f hf
  unfold verdict at hf
  cases hfind : c.trigger.find? x.1 with
  | none => simp [hfind] at hf
  | some start =>
    cases hviolates : c.violates x.1 with
    | false => simp [hfind, hviolates] at hf
    | true =>
      simp only [hfind, hviolates, if_true, List.mem_singleton] at hf
      exact ⟨x.1, start, hline ▸ Text.isLine_iff.2 hx, hfind, by rw [hf]⟩

theorem passMessage_of_mem {c : LineCheck} (hc : c.isComplete = true) {file : String} {text : List Char}
    {k : PassedCheck} (hk : k ∈ ((Rule.line c).verdict file text).passedChecks) : c.passMessage = some k.message := by
  obtain ⟨o, ho, hk⟩ := List.mem_flatMap.1 hk
  obtain ⟨x, hx, rfl⟩ := List.mem_map.1 ho
  unfold verdict at hk
  cases hfind : c.trigger.find? x.1 with
  | none => simp [hfind] at hk
  | some start =>
    cases hviolates : c.violates x.1 with
    | true => simp [hfind, hviolates] at hk
    | false =>
      simp only [hfind, hviolates, Bool.false_eq_true, if_false, List.mem_singleton] at hk
      -- A line passes only a check that requires or forbids something.
      have hconditional : c.isConditional = true := by
        simp only [violates, Bool.or_eq_false_iff, Bool.not_eq_false'] at hviolates
        exact hviolates.2
      simp only [isComplete, hconditional, Bool.not_true, Bool.false_or] at hc
      obtain ⟨message, hmessage⟩ := Option.isSome_iff_exists.1 hc
      rw [hk, hmessage, Option.getD_some]

theorem validated_eq_ok {c c' : LineCheck} : c.validated = .ok c' ↔ c.isComplete = true ∧ c = c' := by
  unfold validated
  split
  · next hc => simp [hc]
  · next hc => simp [hc]

end LineCheck

/-! ## Catalogues -/

/-- Whether a rule is complete and has no trigger that can match behind the last character of a line. -/
def Rule.staysInLine : Rule → Bool
  | line c => c.isComplete && c.trigger.beginsWithInk false
  | adjacent _ => true

theorem Registry.staysInLine_of_mem {linter : Option Linter} {concern : Concern} {r : Rule}
    (hr : r ∈ (profileOf linter concern).rules) : r.staysInLine = true := by
  have hall : (profileOf none concern).rules.all Rule.staysInLine = true := by
    cases concern <;> decide +kernel
  apply List.all_eq_true.1 hall
  cases concern <;> exact hr

theorem Rule.column_le_length {r : Rule} (hr : r.staysInLine = true) {file : String} {text : List Char} {f : Finding}
    (hf : f ∈ (r.verdict file text).findings) {column : Nat} (hcolumn : f.column = some column) :
    ∃ line, Text.IsLine text f.line line ∧ 1 ≤ column ∧ column ≤ line.length := by
  cases r with
  | line c =>
    obtain ⟨line, start, hline, hfind, hstart⟩ := LineCheck.column_of_mem hf
    simp only [staysInLine, Bool.and_eq_true] at hr
    have hlt := Pattern.lt_length_of_find? hr.2 hfind
    obtain rfl : start + 1 = column := Option.some.inj (hstart.symm.trans hcolumn)
    exact ⟨line, hline, by omega, by omega⟩
  | adjacent c =>
    simp only [verdict, AdjacentMarkers.verdict] at hf
    split at hf
    · split at hf
      · rw [List.mem_singleton.1 hf] at hcolumn
        cases hcolumn
      · cases hf
    · cases hf

/-- **One verdict for each triggered line.** On a file with a name every check that its constructor accepts gives an
outcome. The lines of its findings and those of its passed checks ascend; together they are the lines on which the
trigger occurs, and none is in both. It is a finding if what is required is absent, if what is forbidden is present, or
if the check neither requires nor forbids anything. Its column is one more than the place where the leftmost match of
the trigger starts. A passed check bears the message that the check has for it. Every line check of a catalogue is
accepted, and every column that a rule of a catalogue gives is one of the line. -/
theorem LineCheck.one_verdict_per_triggered_line {file : String} (hfile : file ≠ "") (text : List Char) :
    (∀ c : LineCheck, c.validated = .ok c → ∃ (o : Outcome) (found passed : List Nat), c.evaluate file text = .ok o ∧
      o.findings.map (·.line) = found ∧ o.passedChecks.map (·.line) = passed.map some ∧
      found.Pairwise (· < ·) ∧ passed.Pairwise (· < ·) ∧
      (∀ n, n ∈ found ∨ n ∈ passed ↔ ∃ line, Text.IsLine text n line ∧ c.trigger.occursIn line = true) ∧
      (∀ n ∈ found, n ∉ passed) ∧
      (∀ n line, Text.IsLine text n line → c.trigger.occursIn line = true →
        (n ∈ found ↔ (∃ p, c.requires = some p ∧ p.occursIn line = false) ∨
          (∃ p, c.forbids = some p ∧ p.occursIn line = true) ∨ c.requires = none ∧ c.forbids = none)) ∧
      (∀ f ∈ o.findings, ∃ line start, Text.IsLine text f.line line ∧ f.column = some (start + 1) ∧
        c.trigger.MatchesAt line start ∧ ∀ earlier < start, ¬ c.trigger.MatchesAt line earlier) ∧
      ∀ k ∈ o.passedChecks, c.passMessage = some k.message) ∧
    ∀ linter concern, ∀ r ∈ (Registry.profileOf linter concern).rules, (∀ c, r = .line c → c.validated = .ok c) ∧
      ∃ o, r.evaluate file text = .ok o ∧ ∀ f ∈ o.findings, ∀ column, f.column = some column →
        ∃ line, Text.IsLine text f.line line ∧ 1 ≤ column ∧ column ≤ line.length := by
  refine ⟨fun c hc => ?_, fun linter concern r hr => ?_⟩
  · have hevaluate : c.evaluate file text = .ok ((Rule.line c).verdict file text) :=
      (Rule.line c).evaluate_eq_ok text hfile
    refine ⟨_, c.findingLines text, c.passedLines text, hevaluate, c.lines_findings file text,
      c.lines_passedChecks file text, Text.pairwise_numbersOf _ _, Text.pairwise_numbersOf _ _, fun n => mem_lines_iff,
      fun n => not_mem_passedLines, fun n line hline htrigger => ?_, fun f hf => ?_, fun k hk => ?_⟩
    · rw [mem_findingLines_iff hline htrigger, violates_iff]
    · obtain ⟨line, start, hline, hfind, hcolumn⟩ := column_of_mem hf
      obtain ⟨hmatch, hleftmost⟩ := Pattern.find?_eq_some_iff.1 hfind
      exact ⟨line, start, hline, hcolumn, hmatch, hleftmost⟩
    · exact passMessage_of_mem (validated_eq_ok.1 hc).1 hk
  · have hstays := Registry.staysInLine_of_mem hr
    refine ⟨fun c hc => ?_, _, r.evaluate_eq_ok text hfile, fun f hf column hcolumn => ?_⟩
    · subst hc
      simp only [Rule.staysInLine, Bool.and_eq_true] at hstays
      exact validated_eq_ok.2 ⟨hstays.1, rfl⟩
    · exact Rule.column_le_length hstays hf hcolumn

/-- A setting that is open to every origin, a line of something else and a setting that is not open. -/
theorem LineCheck.one_verdict_per_triggered_line_corsCalls :
    let c := Catalogue.Cors.wildcardOrigin
    let text := "use(cors())\nx\ncors(o)".toList
    c.validated = .ok c ∧ ∃ o, c.evaluate "app.js" text = .ok o ∧
      1 ∈ o.findings.map (·.line) ∧ 2 ∉ o.findings.map (·.line) ∧ some 3 ∈ o.passedChecks.map (·.line) ∧
      ∀ f ∈ o.findings, ∀ column, f.column = some column →
        ∃ line, Text.IsLine text f.line line ∧ 1 ≤ column ∧ column ≤ line.length := by
  intro c text
  have hfile : "app.js" ≠ "" := by decide
  obtain ⟨hchecks, hrules⟩ := one_verdict_per_triggered_line hfile text
  have hvalid : c.validated = .ok c := rfl
  obtain ⟨o, found, passed, ho, hfound, hpassed, -, -, htriggered, -, hviolated, -, -⟩ := hchecks c hvalid
  obtain ⟨-, o', ho', hcolumns⟩ := hrules none .cors (.line c) (.head _)
  obtain rfl : o = o' := Except.ok.inj (ho.symm.trans ho')
  have hopen : Text.IsLine text 1 "use(cors())".toList := by decide +kernel
  have hother : Text.IsLine text 2 "x".toList := by decide +kernel
  have hclosed : Text.IsLine text 3 "cors(o)".toList := by decide +kernel
  refine ⟨hvalid, o, ho, ?_, ?_, ?_, hcolumns⟩
  · rw [hfound, hviolated 1 _ hopen (by decide +kernel)]
    exact .inr (.inl ⟨_, rfl, by decide +kernel⟩)
  · rw [hfound]
    intro h
    obtain ⟨line, hline, htrigger⟩ := (htriggered 2).1 (.inl h)
    rw [hline.unique hother] at htrigger
    exact absurd htrigger (by decide +kernel)
  · rw [hpassed]
    apply List.mem_map_of_mem
    apply ((htriggered 3).2 ⟨_, hclosed, by decide +kernel⟩).resolve_left
    rw [hviolated 3 _ hclosed (by decide +kernel), ← violates_iff]
    decide +kernel

end SourceAudit
