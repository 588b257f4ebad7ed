import Mathlib.Data.List.Basic
import SourceAudit.Pattern.Basic
import SourceAudit.Text.Lines

/-!
# Patterns on a line and in a text

Rules are judged line by line, while the question whether a rule has anything to say is put to the whole text. A
line by itself has nothing in front of it and nothing behind it; in its text it stands between newlines. A pattern
notices that if it refuses to stand behind a newline or in front of one, and only then: a newline is no more part of a
word than the end of a text is.

Results:
* `Text.lines_append_newline`, `Text.length_lines`: newlines keep lines apart, and there is one line more than newlines.
* `Text.eq_of_lines_eq`: a text is its lines with a newline between any two of them.
* `Pattern.occursIn_iff`: a pattern occurs in a text exactly if a piece of it starts somewhere.
* `Pattern.find?_eq_some_iff`: what is found is the leftmost match.
* `Pattern.run_embeds`: a match on a line is a match between newlines, unless the pattern refuses these.
* `Pattern.occursIn_of_mem_lines`: what occurs on a line occurs in the text, unless the pattern refuses newlines
  around it.
* `Pattern.exists_line_of_occursIn`: what occurs in a text occurs on a line, unless the pattern takes newlines.
-/
namespace SourceAudit

namespace Text

@[simp] theorem lines_nil : lines [] = [[]] := rfl

theorem lines_ne_nil (text : List Char) : lines text ≠ [] := by
  cases text with
  | nil => simp
  | cons c text =>
    show consLine c (lines text) ≠ []
    unfold consLine
    split <;> split <;> simp

theorem lines_newline (text : List Char) : lines ('\n' :: text) = [] :: lines text := by
  cases h : lines text with
  | nil => exact absurd h (lines_ne_nil text)
  | cons line rest =>
    show consLine '\n' (lines text) = _
    rw [h]
    rfl

theorem lines_cons {c : Char} {text line : List Char} {rest : List (List Char)} (hc : c ≠ '\n')
    (h : lines text = line :: rest) : lines (c :: text) = (c :: line) :: rest := by
  show consLine c (lines text) = _
  rw [h]
  simp [consLine, hc]

/-- A newline between two texts keeps their lines apart. -/
theorem lines_append_newline (x y : List Char) : lines (x ++ '\n' :: y) = lines x ++ lines y := by
  induction x with
  | nil => exact lines_newline y
  | cons c x ih =>
    by_cases hc : c = '\n'
    · subst hc
      rw [List.cons_append, lines_newline, ih, lines_newline, List.cons_append]
    · obtain ⟨line, rest, hlines⟩ := List.exists_cons_of_ne_nil (lines_ne_nil x)
      rw [hlines, List.cons_append] at ih
      rw [List.cons_append, lines_cons hc ih, lines_cons hc hlines, List.cons_append]

theorem lines_of_notMem {text : List Char} (h : '\n' ∉ text) : lines text = [text] := by
  induction text with
  | nil => rfl
  | cons c text ih =>
    rw [List.mem_cons, not_or] at h
    exact lines_cons (Ne.symm h.1) (ih h.2)

/-- A text has one line more than newlines. -/
theorem length_lines (text : List Char) : (lines text).length = text.count '\n' + 1 := by
  induction text with
  | nil => rfl
  | cons c text ih =>
    by_cases hc : c = '\n'
    · subst hc
      rw [lines_newline, List.length_cons, ih, List.count_cons_self]
    · obtain ⟨line, rest, hlines⟩ := List.exists_cons_of_ne_nil (lines_ne_nil text)
      rw [hlines, List.length_cons] at ih
      rw [lines_cons hc hlines, List.length_cons, ih, List.count_cons_of_ne hc]

/-- A text is its lines with a newline between any two of them. -/
theorem eq_of_lines_eq {text line : List Char} (before : List (List Char)) {after : List (List Char)}
    (h : lines text = before ++ line :: after) :
    text = before.flatMap (· ++ ['\n']) ++ line ++ after.flatMap ('\n' :: ·) := by
  induction text generalizing before line after with
  | nil =>
    cases before with
    | nil => cases h; rfl
    | cons first before => simp at h
  | cons c text ih =>
    cases hl : lines text with
    | nil => exact absurd hl (lines_ne_nil text)
    | cons first rest =>
      have hfirst : text = first ++ rest.flatMap ('\n' :: ·) := by
        simpa using ih [] hl
      by_cases hc : c = '\n'
      · subst hc
        rw [lines_newline] at h
        cases before with
        | nil =>
          simp only [List.nil_append, List.cons.injEq] at h
          obtain ⟨rfl, rfl⟩ := h
          rw [hl]
          simpa using hfirst
        | cons b before =>
          simp only [List.cons_append, List.cons.injEq] at h
          obtain ⟨rfl, h⟩ := h
          simpa using ih before h
      · rw [lines_cons hc hl] at h
        cases before with
        | nil =>
          simp only [List.nil_append, List.cons.injEq] at h
          obtain ⟨rfl, rfl⟩ := h
          simpa using hfirst
        | cons b before =>
          simp only [List.cons_append, List.cons.injEq] at h
          obtain ⟨rfl, h⟩ := h
          have := ih (first :: before) (by rw [hl, h]; rfl)
          simpa using this

end Text

namespace Pattern

/-! ## Where a pattern occurs -/

theorem getLast?_cons_or (c : Char) (pre : List Char) (before : Option Char) :
    (c :: pre).getLast?.or before = pre.getLast?.or (some c) := by
  rw [List.getLast?_cons]
  cases pre.getLast? <;> rfl

theorem findFrom_isSome {p : Pattern} {i : Nat} {before : Option Char} {text : List Char} :
    (p.findFrom i before text).isSome = true ↔
      ∃ pre post, text = pre ++ post ∧ p.startsAt (pre.getLast?.or before) post = true := by
  induction text generalizing i before with
  | nil =>
    unfold findFrom
    constructor
    · intro h
      refine ⟨[], [], rfl, ?_⟩
      by_cases hs : p.startsAt before [] = true
      · exact hs
      · simp [hs] at h
    · rintro ⟨pre, post, h, hs⟩
      obtain ⟨rfl, rfl⟩ := List.append_eq_nil_iff.1 h.symm
      have hs : p.startsAt before [] = true := hs
      simp [hs]
  | cons c text ih =>
    unfold findFrom
    by_cases hs : p.startsAt before (c :: text) = true
    · simp only [hs, if_true, Option.isSome_some, true_iff]
      exact ⟨[], c :: text, rfl, hs⟩
    · rw [if_neg hs, ih]
      constructor
      · rintro ⟨pre, post, rfl, h⟩
        refine ⟨c :: pre, post, rfl, ?_⟩
        rwa [getLast?_cons_or]
      · rintro ⟨pre, post, htext, h⟩
        cases pre with
        | nil => exact absurd (htext ▸ h) hs
        | cons b pre =>
          obtain ⟨rfl, rfl⟩ := List.cons.inj htext
          refine ⟨pre, post, rfl, ?_⟩
          rwa [getLast?_cons_or] at h

/-- A pattern occurs in a text exactly if a piece of it starts somewhere. -/
theorem occursIn_iff {p : Pattern} {text : List Char} :
    p.occursIn text = true ↔ ∃ pre post, text = pre ++ post ∧ p.startsAt pre.getLast? post = true := by
  rw [occursIn, find?, findFrom_isSome]
  simp only [Option.or_none]

/-- Whether a piece of the pattern starts some characters into a text. -/
def startsAfter (p : Pattern) (before : Option Char) (text : List Char) (n : Nat) : Bool :=
  p.startsAt ((text.take n).getLast?.or before) (text.drop n)

theorem startsAfter_succ (p : Pattern) (before : Option Char) (c : Char) (text : List Char) (n : Nat) :
    p.startsAfter before (c :: text) (n + 1) = p.startsAfter (some c) text n := by
  rw [startsAfter, startsAfter, List.take_succ_cons, getLast?_cons_or, List.drop_succ_cons]

/-- The search stops at the first place where a piece starts. -/
theorem findFrom_eq_some {p : Pattern} {i j : Nat} {before : Option Char} {text : List Char} :
    p.findFrom i before text = some j ↔
      ∃ n ≤ text.length, i + n = j ∧ p.startsAfter before text n = true ∧
        ∀ m < n, p.startsAfter before text m = false := by
  induction text generalizing i before with
  | nil =>
    unfold findFrom
    constructor
    · intro h
      obtain ⟨hs, hij⟩ := Option.ite_none_right_eq_some.1 h
      exact ⟨0, Nat.le_refl 0, Option.some.inj hij, hs, fun m hm => absurd hm m.not_lt_zero⟩
    · intro ⟨n, hn, hij, hs, _⟩
      obtain rfl : n = 0 := Nat.le_zero.1 hn
      exact (if_pos hs).trans (congrArg some hij)
  | cons c text ih =>
    unfold findFrom
    by_cases hs : p.startsAt before (c :: text) = true
    · rw [if_pos hs]
      constructor
      · intro h
        exact ⟨0, Nat.zero_le _, Option.some.inj h, hs, fun m hm => absurd hm m.not_lt_zero⟩
      · intro ⟨n, _, hij, _, hfirst⟩
        -- A later place would not be the first.
        cases n with
        | zero => exact congrArg some hij
        | succ n => exact absurd hs (Bool.eq_false_iff.1 (hfirst 0 n.succ_pos))
    · rw [if_neg hs, ih]
      constructor
      · intro ⟨n, hn, hij, hstarts, hfirst⟩
        refine ⟨n + 1, Nat.succ_le_succ hn, by omega, by rwa [startsAfter_succ], fun m hm => ?_⟩
        cases m with
        | zero => exact Bool.eq_false_iff.2 hs
        | succ m => rw [startsAfter_succ, hfirst m (by omega)]
      · intro ⟨n, hn, hij, hstarts, hfirst⟩
        cases n with
        | zero => exact absurd hstarts hs
        | succ n =>
          rw [startsAfter_succ] at hstarts
          refine ⟨n, Nat.le_of_succ_le_succ hn, by omega, hstarts, fun m hm => ?_⟩
          rw [← startsAfter_succ p before, hfirst (m + 1) (by omega)]

/-- A piece of the pattern starts at a number of characters from the beginning of a text. -/
def MatchesAt (p : Pattern) (text : List Char) (n : Nat) : Prop := n ≤ text.length ∧ p.startsAfter none text n = true

/-- What is found is the leftmost match. -/
theorem find?_eq_some_iff {p : Pattern} {text : List Char} {n : Nat} :
    p.find? text = some n ↔ p.MatchesAt text n ∧ ∀ m < n, ¬ p.MatchesAt text m := by
  refine findFrom_eq_some.trans ⟨fun ⟨m, hm, hn, hs, hfirst⟩ => ?_, fun ⟨⟨hn, hs⟩, hfirst⟩ => ?_⟩
  · obtain rfl : m = n := (Nat.zero_add m).symm.trans hn
    exact ⟨⟨hm, hs⟩, fun k hk h => Bool.eq_false_iff.1 (hfirst k hk) h.2⟩
  · exact ⟨n, hn, Nat.zero_add n, hs, fun m hm => Bool.eq_false_iff.2 fun h => hfirst m hm ⟨by omega, h⟩⟩

/-! ## The newlines around a line -/

/-- Whether a pattern takes the newlines around a line like the ends of a text. -/
def allowsNewline : Pattern → Bool
  | .notAfter bad => !bad '\n'
  | .notBefore bad => !bad '\n'
  | .seq p q => p.allowsNewline && q.allowsNewline
  | .alt p q => p.allowsNewline && q.allowsNewline
  | _ => true

theorem isWordChar_newline : Text.isWordChar '\n' = false := by decide +kernel

/-- What stands in front of a line: nothing, or a newline. -/
def BeginsLine (before : Option Char) : Prop := ∀ c ∈ before, c = '\n'

/-- What follows a line: nothing, or a newline. -/
def EndsLine (tail : List Char) : Prop := ∀ c ∈ tail.head?, c = '\n'

theorem beginsLine_none : BeginsLine none := fun _ hc => nomatch hc

theorem beginsLine_newline : BeginsLine (some '\n') := fun _ hc => (Option.some.inj hc).symm

theorem endsLine_nil : EndsLine [] := fun _ hc => nomatch hc

theorem endsLine_newline (more : List Char) : EndsLine ('\n' :: more) := fun _ hc => (Option.some.inj hc).symm

theorem any_isWordChar_of_beginsLine {before : Option Char} (h : BeginsLine before) :
    before.any Text.isWordChar = false := by
  cases before with
  | none => rfl
  | some c =>
    obtain rfl := h c rfl
    exact isWordChar_newline

theorem wordBehind_append {tail : List Char} (htail : EndsLine tail) (rest : List Char) :
    wordBehind (rest ++ tail) = wordBehind rest := by
  cases rest with
  | cons c rest => rfl
  | nil =>
    cases tail with
    | nil => rfl
    | cons c more =>
      obtain rfl := htail c rfl
      exact isWordChar_newline

/-- What one goal asks at a place of a line, another asks at the same place of the line with something else around it:
in front of it `front'` in place of `front`, and behind it `tail`. -/
structure Goal.Embeds (k k' : Goal) (front front' : Option Char) (tail : List Char) : Prop where
  inside : ∀ before rest, k before rest = true → k' before (rest ++ tail) = true
  atStart : ∀ rest, k front rest = true → k' front' (rest ++ tail) = true

section Embedding

variable {k k' : Goal} {front front' : Option Char} {tail : List Char}

theorem runMany_of_goal {ok : CharClass} {before : Option Char} {rest : List Char} (h : k before rest = true) :
    runMany ok k before rest = true := by
  cases rest with
  | nil => exact h
  | cons c rest => simp [runMany, h]

theorem many_embeds (ok : CharClass) (h : k.Embeds k' front front' tail) :
    Goal.Embeds ((many ok).run k) ((many ok).run k') front front' tail := by
  have hinside : ∀ rest before, runMany ok k before rest = true → runMany ok k' before (rest ++ tail) = true := by
    intro rest
    induction rest with
    | nil => exact fun before hrun => runMany_of_goal (h.inside before [] hrun)
    | cons c rest ih =>
      intro before hrun
      simp only [runMany, Bool.or_eq_true, Bool.and_eq_true, List.cons_append] at hrun ⊢
      exact hrun.imp (h.inside before (c :: rest)) (And.imp_right (ih (some c)))
  refine ⟨fun before rest => hinside rest before, fun rest hrun => ?_⟩
  cases rest with
  | nil => exact runMany_of_goal (h.atStart [] hrun)
  | cons c rest =>
    simp only [run, runMany, Bool.or_eq_true, Bool.and_eq_true, List.cons_append] at hrun ⊢
    exact hrun.imp (h.atStart (c :: rest)) (And.imp_right (hinside rest (some c)))

theorem one_embeds (ok : CharClass) (h : k.Embeds k' front front' tail) :
    Goal.Embeds ((one ok).run k) ((one ok).run k') front front' tail := by
  have hone : ∀ before before' rest, (one ok).run k before rest = true →
      (one ok).run k' before' (rest ++ tail) = true := by
    intro before before' rest hrun
    cases rest with
    | nil => cases hrun
    | cons c rest =>
      simp only [run, Bool.and_eq_true, List.cons_append] at hrun ⊢
      exact hrun.imp_right (h.inside (some c) rest)
  exact ⟨fun before => hone before before, hone front front'⟩

theorem wordEdge_embeds (hfront : BeginsLine front) (hfront' : BeginsLine front') (htail : EndsLine tail)
    (h : k.Embeds k' front front' tail) : Goal.Embeds (wordEdge.run k) (wordEdge.run k') front front' tail := by
  constructor
  · intro before rest hrun
    simp only [run, Bool.and_eq_true, wordBehind_append htail] at hrun ⊢
    exact hrun.imp_right (h.inside before rest)
  · intro rest hrun
    simp only [run, Bool.and_eq_true, wordBehind_append htail, any_isWordChar_of_beginsLine hfront,
      any_isWordChar_of_beginsLine hfront'] at hrun ⊢
    exact hrun.imp_right (h.atStart rest)

theorem notAfter_embeds {bad : CharClass} (hbad : ∀ c ∈ front', bad c = false) (h : k.Embeds k' front front' tail) :
    Goal.Embeds ((notAfter bad).run k) ((notAfter bad).run k') front front' tail := by
  constructor
  · intro before rest hrun
    simp only [run, Bool.and_eq_true] at hrun ⊢
    exact hrun.imp_right (h.inside before rest)
  · intro rest hrun
    simp only [run, Bool.and_eq_true] at hrun ⊢
    refine ⟨?_, h.atStart rest hrun.2⟩
    cases front' with
    | none => rfl
    | some c => simp [hbad c rfl]

theorem notBefore_embeds {bad : CharClass} (hbad : ∀ c ∈ tail.head?, bad c = false)
    (h : k.Embeds k' front front' tail) :
    Goal.Embeds ((notBefore bad).run k) ((notBefore bad).run k') front front' tail := by
  have hstep : ∀ before before', (∀ rest, k before rest = true → k' before' (rest ++ tail) = true) →
      ∀ rest, (notBefore bad).run k before rest = true → (notBefore bad).run k' before' (rest ++ tail) = true := by
    intro before before' hk rest hrun
    cases rest with
    | nil =>
      have hend := hk [] hrun
      cases tail with
      | nil => exact hend
      | cons c more => simpa [run, hbad c rfl] using hend
    | cons c rest =>
      simp only [run, Bool.and_eq_true, List.cons_append] at hrun ⊢
      exact hrun.imp_right (hk (c :: rest))
  exact ⟨fun before => hstep before before (h.inside before), hstep front front' h.atStart⟩

/-- A match on a line is a match on it with something else around it. A pattern that refuses newlines needs to be put
where nothing stands around the line. -/
theorem run_embeds {p : Pattern} (hfront : BeginsLine front) (hfront' : BeginsLine front') (htail : EndsLine tail)
    (hp : p.allowsNewline = true ∨ front' = none ∧ tail = []) (h : k.Embeds k' front front' tail) :
    Goal.Embeds (p.run k) (p.run k') front front' tail := by
  induction p generalizing k k' with
  | empty => exact h
  | one ok => exact one_embeds ok h
  | many ok => exact many_embeds ok h
  | wordEdge => exact wordEdge_embeds hfront hfront' htail h
  | notAfter bad =>
    refine notAfter_embeds (fun c hc => ?_) h
    rcases hp with hp | ⟨rfl, -⟩
    · rw [hfront' c hc]
      simpa [allowsNewline] using hp
    · cases hc
  | notBefore bad =>
    refine notBefore_embeds (fun c hc => ?_) h
    rcases hp with hp | ⟨-, rfl⟩
    · rw [htail c hc]
      simpa [allowsNewline] using hp
    · cases hc
  | seq p q ihp ihq =>
    simp only [allowsNewline, Bool.and_eq_true] at hp
    exact ihp (hp.imp_left And.left) (ihq (hp.imp_left And.right) h)
  | alt p q ihp ihq =>
    simp only [allowsNewline, Bool.and_eq_true] at hp
    have hleft := ihp (hp.imp_left And.left) h
    have hright := ihq (hp.imp_left And.right) h
    constructor
    · intro before rest hrun
      simp only [run, Bool.or_eq_true] at hrun ⊢
      exact hrun.imp (hleft.inside before rest) (hright.inside before rest)
    · intro rest hrun
      simp only [run, Bool.or_eq_true] at hrun ⊢
      exact hrun.imp (hleft.atStart rest) (hright.atStart rest)

theorem startsAt_embeds {p : Pattern} (hfront : BeginsLine front) (hfront' : BeginsLine front') (htail : EndsLine tail)
    (hp : p.allowsNewline = true ∨ front' = none ∧ tail = []) :
    Goal.Embeds p.startsAt p.startsAt front front' tail :=
  run_embeds hfront hfront' htail hp ⟨fun _ _ _ => rfl, fun _ _ => rfl⟩

end Embedding

/-- What occurs on a line occurs in the text, unless the pattern refuses newlines around it. -/
theorem occursIn_of_mem_lines {p : Pattern} (hp : p.allowsNewline = true) {text line : List Char}
    (hline : line ∈ Text.lines text) (h : p.occursIn line = true) : p.occursIn text = true := by
  obtain ⟨before, after, hlines⟩ := List.append_of_mem hline
  obtain ⟨pre, post, rfl, hs⟩ := occursIn_iff.1 h
  rw [occursIn_iff, Text.eq_of_lines_eq before hlines]
  refine ⟨before.flatMap (· ++ ['\n']) ++ pre, post ++ after.flatMap ('\n' :: ·), by simp, ?_⟩
  have htail : EndsLine (after.flatMap ('\n' :: ·)) := by
    cases after with
    | nil => exact endsLine_nil
    | cons next after => exact endsLine_newline _
  have hembeds := startsAt_embeds beginsLine_none beginsLine_newline htail (.inl hp)
  -- In front of the piece stands a character of the line, or what begins the line: a newline, or nothing.
  rw [List.getLast?_append]
  cases hlast : pre.getLast? with
  | some c =>
    rw [hlast] at hs
    exact hembeds.inside (some c) post hs
  | none =>
    rw [hlast] at hs
    rcases List.eq_nil_or_concat before with rfl | ⟨init, last, rfl⟩
    · exact hembeds.inside none post hs
    · simpa using hembeds.atStart post hs

/-! ## Patterns that stay on a line -/

/-- Whether no character that a pattern takes is a newline. -/
def staysOnLine : Pattern → Bool
  | .one ok => !ok '\n'
  | .many ok => !ok '\n'
  | .seq p q => p.staysOnLine && q.staysOnLine
  | .alt p q => p.staysOnLine && q.staysOnLine
  | _ => true

theorem runMany_of_append_newline {ok : CharClass} (hok : ok '\n' = false) {k k' : Goal} {more : List Char}
    (hk : ∀ b r, k b (r ++ '\n' :: more) = true → k' b r = true) {before : Option Char} {rest : List Char}
    (h : runMany ok k before (rest ++ '\n' :: more) = true) : runMany ok k' before rest = true := by
  induction rest generalizing before with
  | nil =>
    simp only [List.nil_append, runMany, hok, Bool.false_and, Bool.or_false] at h
    exact hk before [] h
  | cons c rest ih =>
    simp only [runMany, Bool.or_eq_true, Bool.and_eq_true, List.cons_append] at h ⊢
    rcases h with h | ⟨hc, h⟩
    · exact .inl (hk before (c :: rest) h)
    · exact .inr ⟨hc, ih h⟩

/-- A match that stays on a line is one on the line by itself. -/
theorem run_of_append_newline {p : Pattern} (hp : p.staysOnLine = true) {k k' : Goal} {more : List Char}
    (hk : ∀ b r, k b (r ++ '\n' :: more) = true → k' b r = true) {before : Option Char} {rest : List Char}
    (h : p.run k before (rest ++ '\n' :: more) = true) : p.run k' before rest = true := by
  induction p generalizing k k' before rest with
  | empty => exact hk before rest h
  | one ok =>
    simp only [staysOnLine, Bool.not_eq_true'] at hp
    cases rest with
    | nil => simp [run, hp] at h
    | cons c rest =>
      simp only [run, Bool.and_eq_true, List.cons_append] at h ⊢
      exact ⟨h.1, hk (some c) rest h.2⟩
  | many ok =>
    simp only [staysOnLine, Bool.not_eq_true'] at hp
    exact runMany_of_append_newline hp hk h
  | wordEdge =>
    simp only [run, Bool.and_eq_true] at h ⊢
    rw [← wordBehind_append (endsLine_newline more) rest]
    exact ⟨h.1, hk before rest h.2⟩
  | notAfter bad =>
    simp only [run, Bool.and_eq_true] at h ⊢
    exact ⟨h.1, hk before rest h.2⟩
  | notBefore bad =>
    cases rest with
    | nil =>
      simp only [run, List.nil_append, Bool.and_eq_true] at h ⊢
      exact hk before [] h.2
    | cons c rest =>
      simp only [run, Bool.and_eq_true, List.cons_append] at h ⊢
      exact ⟨h.1, hk before (c :: rest) h.2⟩
  | seq p q ihp ihq =>
    simp only [staysOnLine, Bool.and_eq_true] at hp
    have hq : ∀ b r, q.run k b (r ++ '\n' :: more) = true → q.run k' b r = true := fun b r hq => ihq hp.2 hk hq
    exact ihp hp.1 hq h
  | alt p q ihp ihq =>
    simp only [staysOnLine, Bool.and_eq_true] at hp
    simp only [run, Bool.or_eq_true] at h ⊢
    rcases h with h | h
    · exact .inl (ihp hp.1 hk h)
    · exact .inr (ihq hp.2 hk h)

theorem occursIn_of_append_newline {p : Pattern} (hp : p.staysOnLine = true) {x y : List Char}
    (h : p.occursIn (x ++ '\n' :: y) = true) : p.occursIn x = true ∨ p.occursIn y = true := by
  obtain ⟨pre, post, heq, hs⟩ := occursIn_iff.1 h
  rcases List.append_eq_append_iff.1 heq.symm with ⟨rest, rfl, rfl⟩ | ⟨behind, rfl, hy⟩
  · exact .inl (occursIn_iff.2 ⟨pre, rest, rfl, run_of_append_newline hp (fun _ _ _ => rfl) hs⟩)
  · cases behind with
    | nil =>
      obtain rfl : [] ++ '\n' :: y = post := hy
      rw [List.append_nil] at hs
      refine .inl (occursIn_iff.2 ⟨x, [], (List.append_nil x).symm, ?_⟩)
      exact run_of_append_newline hp (fun _ _ _ => rfl) hs
    | cons c behind =>
      obtain ⟨rfl, rfl⟩ := List.cons.inj hy
      refine .inr (occursIn_iff.2 ⟨behind, post, rfl, ?_⟩)
      rw [List.getLast?_append_cons] at hs
      cases hlast : behind.getLast? with
      | some c => simpa [List.getLast?_cons, hlast] using hs
      | none =>
        -- The piece begins the second text, in front of which nothing stands that could be refused.
        have hfirst : p.startsAt (some '\n') post = true := by simpa [List.getLast?_cons, hlast] using hs
        have hembeds := startsAt_embeds (p := p) beginsLine_newline beginsLine_none endsLine_nil (.inr ⟨rfl, rfl⟩)
        simpa using hembeds.atStart post hfirst

/-- What stays on a line and occurs in a text occurs on one of its lines. -/
theorem exists_line_of_occursIn {p : Pattern} (hp : p.staysOnLine = true) {text : List Char}
    (h : p.occursIn text = true) : ∃ line ∈ Text.lines text, p.occursIn line = true := by
  obtain ⟨first, rest, hlines⟩ := List.exists_cons_of_ne_nil (Text.lines_ne_nil text)
  have htext : text = first ++ rest.flatMap ('\n' :: ·) := by simpa using Text.eq_of_lines_eq [] hlines
  rw [hlines]
  rw [htext] at h
  clear hlines htext
  induction rest generalizing first with
  | nil =>
    rw [List.flatMap_nil, List.append_nil] at h
    exact ⟨first, .head _, h⟩
  | cons next rest ih =>
    rw [List.flatMap_cons, List.cons_append] at h
    rcases occursIn_of_append_newline hp h with h | h
    · exact ⟨first, .head _, h⟩
    · obtain ⟨line, hline, h⟩ := ih next h
      exact ⟨line, .tail _ hline, h⟩

end Pattern
end SourceAudit
