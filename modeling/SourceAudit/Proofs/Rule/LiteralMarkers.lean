import SourceAudit.Proofs.Pattern.Pieces
import SourceAudit.Proofs.Rule.LineVerdicts
import SourceAudit.Proofs.Rule.MarkerDistance
import SourceAudit.Proofs.Text.Lowercase

/-!
# Literal markers

Whether a rule has anything to say about a text is asked of the whole text; what it says is found line by line. For
patterns in general the two may differ. A match may go across a newline, in which case no line by itself carries it, or
it may refuse to stand next to a newline, in which case a line carries it and the text does not. Words taken literally
do neither, so long as none of them has a newline in it, whatever other characters they have and in whatever case they
are compared.

Results:
* `Pattern.LineBound.occursIn_iff`: what is bound to a line occurs in a text exactly if it occurs on a line of it.
* `Pattern.lineBound_markers`: words without newlines are bound to a line.
* `LineCheck.triggersOn_iff_emits`, `AdjacentMarkers.triggersOn_iff`: the question and the answer agree.
* `Pattern.find?_markers`: words taken as they are occur as pieces of a text, and the leftmost of these is found.
* `literalMarkers_exact`: all of this for rules made of literal words.
-/
namespace SourceAudit

open Fallible

/-! ## Patterns bound to a line -/

namespace Pattern

/-- Matches of a pattern lie on one line, and it makes no difference whether the line stands by itself or not. -/
structure LineBound (p : Pattern) : Prop where
  stays : p.staysOnLine = true
  allows : p.allowsNewline = true

/-- What is bound to a line occurs in a text exactly if it occurs on a line of it. -/
theorem LineBound.occursIn_iff {p : Pattern} (hp : p.LineBound) {text : List Char} :
    p.occursIn text = true ↔ ∃ line ∈ Text.lines text, p.occursIn line = true := by
  constructor
  · intro h
    exact exists_line_of_occursIn hp.stays h
  · intro h
    obtain ⟨line, hline, hoccurs⟩ := h
    exact occursIn_of_mem_lines hp.allows hline hoccurs

theorem lineBound_empty : LineBound .empty := ⟨rfl, rfl⟩

theorem lineBound_one {ok : CharClass} (h : ok '\n' = false) : LineBound (.one ok) :=
  ⟨by simp [staysOnLine, h], rfl⟩

theorem LineBound.seq {p q : Pattern} (hp : p.LineBound) (hq : q.LineBound) : LineBound (.seq p q) :=
  ⟨by simp [staysOnLine, hp.stays, hq.stays], by simp [allowsNewline, hp.allows, hq.allows]⟩

theorem LineBound.alt {p q : Pattern} (hp : p.LineBound) (hq : q.LineBound) : LineBound (.alt p q) :=
  ⟨by simp [staysOnLine, hp.stays, hq.stays], by simp [allowsNewline, hp.allows, hq.allows]⟩

theorem lineBound_sequence {ps : List Pattern} (h : ∀ p ∈ ps, p.LineBound) : (sequence ps).LineBound := by
  induction ps with
  | nil => exact lineBound_empty
  | cons p ps ih =>
    obtain ⟨hp, hps⟩ := List.forall_mem_cons.1 h
    cases ps with
    | nil => exact hp
    | cons q qs => exact hp.seq (ih hps)

theorem lineBound_anyOf {ps : List Pattern} (h : ∀ p ∈ ps, p.LineBound) : (anyOf ps).LineBound := by
  induction ps with
  | nil => exact lineBound_one rfl
  | cons p ps ih =>
    obtain ⟨hp, hps⟩ := List.forall_mem_cons.1 h
    cases ps with
    | nil => exact hp
    | cons q qs => exact hp.alt (ih hps)

theorem lineBound_word {s : String} (h : '\n' ∉ s.toList) : (word s).LineBound := by
  apply lineBound_sequence
  rw [List.forall_mem_map]
  intro c hc
  apply lineBound_one
  rw [beq_eq_false_iff_ne]
  rintro rfl
  exact h hc

theorem lineBound_wordAnyCase {s : String} (h : '\n' ∉ s.toList) : (wordAnyCase s).LineBound := by
  apply lineBound_sequence
  rw [List.forall_mem_map]
  intro c hc
  apply lineBound_one
  rw [Bool.eq_false_iff]
  intro hagree
  rw [Text.agreeAnyCase_newline.1 hagree] at hc
  exact h hc

/-- Words without newlines are bound to a line, in whatever case they are compared. -/
theorem lineBound_markers {words : List String} (h : ∀ w ∈ words, '\n' ∉ w.toList) (anyCase : Bool) :
    (markers words anyCase).LineBound := by
  cases words with
  | nil => exact lineBound_empty
  | cons w words =>
    cases anyCase with
    | false =>
      apply lineBound_anyOf
      rw [List.forall_mem_map]
      exact fun s hs => lineBound_word (h s hs)
    | true =>
      apply lineBound_anyOf
      rw [List.forall_mem_map]
      exact fun s hs => lineBound_wordAnyCase (h s hs)

/-! ## Words as they are -/

/-- A word stands in a text at a place, counted in characters from zero. -/
def StandsAt (w : String) (text : List Char) (n : Nat) : Prop :=
  ∃ pre post, text = pre ++ w.toList ++ post ∧ pre.length = n

theorem exists_standsAt {w : String} {text : List Char} : (∃ n, StandsAt w text n) ↔ w.toList <:+: text := by
  constructor
  · intro h
    obtain ⟨_, pre, post, htext, _⟩ := h
    exact ⟨pre, post, htext.symm⟩
  · intro h
    obtain ⟨pre, post, htext⟩ := h
    exact ⟨pre.length, pre, post, htext.symm, rfl⟩

theorem spans_markers {words : List String} (hne : words ≠ []) {text : List Char} {n : Nat} :
    (∃ stop, (markers words false).Spans text n stop) ↔ ∃ w ∈ words, StandsAt w text n := by
  obtain ⟨first, rest, rfl⟩ := List.exists_cons_of_ne_nil hne
  show (∃ stop, (wordOf (first :: rest)).Spans text n stop) ↔ _
  constructor
  · intro h
    obtain ⟨_, pre, piece, post, htext, hn, _, htakes⟩ := h
    obtain ⟨w, hw, rfl⟩ := takes_wordOf.1 htakes
    exact ⟨w, hw, pre, post, htext, hn⟩
  · intro h
    obtain ⟨w, hw, pre, post, htext, hn⟩ := h
    exact ⟨_, pre, w.toList, post, htext, hn, rfl, takes_wordOf.2 ⟨w, hw, rfl⟩⟩

theorem occursIn_markers {words : List String} (hne : words ≠ []) {text : List Char} :
    (markers words false).occursIn text = true ↔ ∃ w ∈ words, w.toList <:+: text := by
  rw [occursIn_iff_spans]
  simp only [spans_markers hne, ← exists_standsAt]
  constructor
  · intro h
    obtain ⟨n, w, hw, hstands⟩ := h
    exact ⟨w, hw, n, hstands⟩
  · intro h
    obtain ⟨w, hw, n, hstands⟩ := h
    exact ⟨n, w, hw, hstands⟩

/-- What is found is the least place at which one of the words stands. -/
theorem find?_markers {words : List String} (hne : words ≠ []) {text : List Char} {n : Nat} :
    (markers words false).find? text = some n ↔
      (∃ w ∈ words, StandsAt w text n) ∧ ∀ w ∈ words, ∀ m, StandsAt w text m → n ≤ m := by
  rw [find?_eq_some_iff_spans, spans_markers hne]
  refine and_congr_right fun _ => ?_
  constructor
  · intro h w hw m hstands
    obtain ⟨stop, hspans⟩ := (spans_markers hne).2 ⟨w, hw, hstands⟩
    exact h m stop hspans
  · intro h m stop hspans
    obtain ⟨w, hw, hstands⟩ := (spans_markers hne).1 ⟨stop, hspans⟩
    exact h w hw m hstands

end Pattern

theorem Outcome.isEmpty_eq_false_iff_length {o : Outcome} :
    o.isEmpty = false ↔ 1 ≤ o.findings.length + o.passedChecks.length := by
  rw [isEmpty_eq_false_iff, ← List.length_pos_iff, ← List.length_pos_iff]
  omega

/-! ## Line checks -/

namespace LineCheck

variable {c : LineCheck} {text : List Char}

/-- With a trigger that is bound to a line, a text is asked about exactly if the check has something to say about it. -/
theorem triggersOn_iff_emits (hc : c.trigger.LineBound) (file : String) (text : List Char) :
    c.triggersOn text = true ↔ ((Rule.line c).verdict file text).isEmpty = false := by
  rw [← Bool.not_eq_true, isEmpty_verdict]
  simp only [not_forall, Bool.not_eq_false, exists_prop]
  exact hc.occursIn_iff

theorem judge_nameless {line : List Char} (number : Nat) (h : c.triggersOn line = true) (o : Outcome) :
    c.judge "" number line ≠ .ok o := by
  obtain ⟨start, hstart⟩ := Option.isSome_iff_exists.1 h
  unfold judge
  rw [hstart]
  cases c.violates line with
  | true =>
    intro h
    cases h
  | false =>
    intro h
    cases h

theorem evaluate_nameless :
    (∃ o, c.evaluate "" text = .ok o) ↔ ∀ line ∈ Text.lines text, c.triggersOn line = false := by
  constructor
  · intro h line hline
    obtain ⟨o, ho⟩ := h
    obtain ⟨outcomes, houtcomes, _⟩ := bind_eq_ok.1 ho
    have hsound := fault?_eq_none.2 ⟨outcomes, houtcomes⟩
    rw [fault?_mapM, List.findSome?_eq_none_iff] at hsound
    obtain ⟨n, hn⟩ := Text.exists_isLine hline
    obtain ⟨o', ho'⟩ := fault?_eq_none.1 (hsound _ (Text.isLine_iff.1 hn))
    rw [Bool.eq_false_iff]
    intro htrigger
    exact judge_nameless n htrigger o' ho'
  · intro h
    have hjudge : ∀ x ∈ (Text.lines text).zipIdx 1, c.judge "" x.2 x.1 = .ok ({} : Outcome) :=
      fun x hx => c.judge_untriggered "" x.2 (h x.1 (List.fst_mem_of_mem_zipIdx hx))
    exact ⟨_, bind_eq_ok.2 ⟨_, mapM_eq_ok_map hjudge, rfl⟩⟩

theorem mem_verdict_iff (file : String) {n : Nat} :
    (∃ f ∈ ((Rule.line c).verdict file text).findings, f.line = n) ∨
      (∃ k ∈ ((Rule.line c).verdict file text).passedChecks, k.line = some n) ↔
    ∃ line, Text.IsLine text n line ∧ c.triggersOn line = true := by
  have hpassed : (∃ k ∈ ((Rule.line c).verdict file text).passedChecks, k.line = some n) ↔ n ∈ c.passedLines text := by
    rw [← List.mem_map, lines_passedChecks]
    simp
  rw [hpassed, ← List.mem_map, lines_findings, mem_lines_iff]

end LineCheck

/-! ## Adjacent markers -/

namespace AdjacentMarkers

variable {c : AdjacentMarkers} {text : List Char}

/-- With markers that are bound to a line, a text is asked about exactly if each of them is on some line. -/
theorem triggersOn_iff (hfirst : c.first.LineBound) (hsecond : c.second.LineBound) (text : List Char) :
    c.triggersOn text = true ↔ (∃ a, c.first.FirstLine text a) ∧ ∃ b, c.second.FirstLine text b := by
  rw [triggersOn, Bool.and_eq_true, hfirst.occursIn_iff, hsecond.occursIn_iff, Pattern.exists_firstLine_iff,
    Pattern.exists_firstLine_iff]

theorem length_verdict_eq_one_iff (c : AdjacentMarkers) (file : String) (text : List Char) :
    (c.verdict file text).findings.length + (c.verdict file text).passedChecks.length = 1 ↔
      (∃ a, c.first.FirstLine text a) ∧ ∃ b, c.second.FirstLine text b := by
  rcases c.verdict_cases file text with ⟨a, b, ha, hb, _, hverdict⟩ | ⟨a, b, ha, hb, _, hverdict⟩ |
    ⟨hmissing, hverdict⟩
  · rw [hverdict]
    exact iff_of_true rfl ⟨⟨a, ha⟩, b, hb⟩
  · rw [hverdict]
    exact iff_of_true rfl ⟨⟨a, ha⟩, b, hb⟩
  · rw [hverdict]
    exact iff_of_false Nat.zero_ne_one hmissing

theorem evaluate_nameless :
    (∃ o, c.evaluate "" text = .ok o) ↔ ¬ ((∃ a, c.first.FirstLine text a) ∧ ∃ b, c.second.FirstLine text b) := by
  simp only [evaluate, ← Pattern.findIdx?_eq_some_iff]
  cases (Text.lines text).findIdx? c.first.occursIn with
  | none => simp
  | some a =>
    cases (Text.lines text).findIdx? c.second.occursIn with
    | none => simp
    | some b =>
      refine iff_of_false ?_ (not_not_intro ⟨⟨a, rfl⟩, b, rfl⟩)
      intro h
      obtain ⟨o, ho⟩ := h
      by_cases hwindow : ((a : Int) - b).natAbs ≤ c.window
      · simp only [hwindow, if_true] at ho
        cases ho
      · simp only [hwindow, if_false] at ho
        cases ho

end AdjacentMarkers

/-! ## Rules made of literal words -/

/-- **The question and the answer agree on literal markers.** Let the words of some markers have no newline in them, and
be compared as they are or in any case. The trigger of a line check made of such words occurs in a text exactly if the
check emits a finding or a passed check on it, and both markers of a check on adjacent ones occur in a text exactly if
it emits just one; where the file has no name, nothing can be emitted, and the evaluation fails in just these cases. If
there are words and they are compared as they are, a line is triggered exactly if one of them is a piece of it, these
are the lines that have a finding or a passed check, and the column of a finding is one more than the least place of its
line at which one of the words stands. -/
theorem literalMarkers_exact {words words' : List String} (hwords : ∀ w ∈ words, '\n' ∉ w.toList)
    (hwords' : ∀ w ∈ words', '\n' ∉ w.toList) (anyCase anyCase' : Bool) (text : List Char) :
    (∀ c : LineCheck, c.trigger = .markers words anyCase →
      ((∃ o, c.evaluate "" text = .ok o) ↔ c.triggersOn text = false) ∧
      ∀ file, file ≠ "" → ∃ o, c.evaluate file text = .ok o ∧
        (c.triggersOn text = true ↔ 1 ≤ o.findings.length + o.passedChecks.length) ∧
        (anyCase = false → words ≠ [] →
          (∀ line, c.triggersOn line = true ↔ ∃ w ∈ words, w.toList <:+: line) ∧
          (∀ n, (∃ f ∈ o.findings, f.line = n) ∨ (∃ k ∈ o.passedChecks, k.line = some n) ↔
            ∃ line, Text.IsLine text n line ∧ ∃ w ∈ words, w.toList <:+: line) ∧
          ∀ f ∈ o.findings, ∃ line start, Text.IsLine text f.line line ∧ f.column = some (start + 1) ∧
            (∃ w ∈ words, Pattern.StandsAt w line start) ∧
            ∀ w ∈ words, ∀ place, Pattern.StandsAt w line place → start ≤ place)) ∧
    ∀ c : AdjacentMarkers, c.first = .markers words anyCase → c.second = .markers words' anyCase' →
      ((∃ o, c.evaluate "" text = .ok o) ↔ c.triggersOn text = false) ∧
      ∀ file, file ≠ "" → ∃ o, c.evaluate file text = .ok o ∧
        (c.triggersOn text = true ↔ o.findings.length + o.passedChecks.length = 1) := by
  constructor
  · intro c hc
    have hbound : c.trigger.LineBound := hc ▸ Pattern.lineBound_markers hwords anyCase
    refine ⟨?_, fun file hfile => ⟨_, (Rule.line c).evaluate_eq_ok text hfile, ?_, fun hcase hne => ?_⟩⟩
    · rw [LineCheck.evaluate_nameless, ← LineCheck.isEmpty_verdict, ← Bool.not_eq_true (c.triggersOn text),
        LineCheck.triggersOn_iff_emits hbound "" text, Bool.not_eq_false]
    · rw [LineCheck.triggersOn_iff_emits hbound file text, Outcome.isEmpty_eq_false_iff_length]
    · subst hcase
      have htriggers : ∀ line, c.triggersOn line = true ↔ ∃ w ∈ words, w.toList <:+: line := by
        intro line
        rw [LineCheck.triggersOn, hc, Pattern.occursIn_markers hne]
      refine ⟨htriggers, fun n => ?_, fun f hf => ?_⟩
      · rw [LineCheck.mem_verdict_iff]
        simp only [htriggers]
      · obtain ⟨line, start, hline, hfind, hcolumn⟩ := LineCheck.column_of_mem hf
        rw [hc, Pattern.find?_markers hne] at hfind
        exact ⟨line, start, hline, hcolumn, hfind.1, hfind.2⟩
  · intro c hfirst hsecond
    have hbound : c.first.LineBound := hfirst ▸ Pattern.lineBound_markers hwords anyCase
    have hbound' : c.second.LineBound := hsecond ▸ Pattern.lineBound_markers hwords' anyCase'
    have htriggers := AdjacentMarkers.triggersOn_iff hbound hbound' text
    refine ⟨?_, fun file hfile => ⟨_, c.evaluate_eq_ok text hfile, ?_⟩⟩
    · rw [AdjacentMarkers.evaluate_nameless, ← Bool.not_eq_true (c.triggersOn text), htriggers]
    · rw [htriggers, AdjacentMarkers.length_verdict_eq_one_iff]

/-- Words with characters that mean something else in patterns, a line that only looks like them, and one of them in
another case. -/
theorem literalMarkers_exact_metacharacters :
    let words := ["a.b", "c("]
    let text := "axb\nx a.b y\nC(".toList
    let check : LineCheck := { name := "n", concern := .cors, trigger := .markers words false, findingMessage := "m" }
    let pair : AdjacentMarkers := ⟨"n", .cors, .markers words false, .markers ["c("] true, "m", "p", 1, .low, "", none⟩
    (∀ w ∈ words, '\n' ∉ w.toList) ∧ (∀ w ∈ ["c("], '\n' ∉ w.toList) ∧
    (∃ o, check.evaluate "app.js" text = .ok o ∧ 1 ≤ o.findings.length + o.passedChecks.length ∧
      ((∃ f ∈ o.findings, f.line = 2) ∨ ∃ k ∈ o.passedChecks, k.line = some 2) ∧
      ∀ line, check.triggersOn line = true ↔ ∃ w ∈ words, w.toList <:+: line) ∧
    (¬ ∃ o, check.evaluate "" text = .ok o) ∧
    ∃ o, pair.evaluate "app.js" text = .ok o ∧ o.findings.length + o.passedChecks.length = 1 := by
  intro words text check pair
  have hwords : ∀ w ∈ words, '\n' ∉ w.toList := by decide
  have hwords' : ∀ w ∈ ["c("], '\n' ∉ w.toList := by decide
  have hfile : "app.js" ≠ "" := by decide
  obtain ⟨hlines, hmarkers⟩ := literalMarkers_exact hwords hwords' false true text
  obtain ⟨hnameless, hnamed⟩ := hlines check rfl
  obtain ⟨o, ho, hemits, hliteral⟩ := hnamed "app.js" hfile
  obtain ⟨htriggers, hresults, -⟩ := hliteral rfl (List.cons_ne_nil _ _)
  obtain ⟨o', ho', hone⟩ := (hmarkers pair rfl rfl).2 "app.js" hfile
  have hasked : check.triggersOn text = true := rfl
  refine ⟨hwords, hwords', ⟨o, ho, hemits.1 hasked, (hresults 2).2 ?_, htriggers⟩, ?_, o', ho', hone.1 rfl⟩
  · exact ⟨"x a.b y".toList, ⟨by decide, rfl⟩, "a.b", .head _, "x ".toList, " y".toList, rfl⟩
  · rw [hnameless, hasked]
    exact Bool.noConfusion

end SourceAudit
