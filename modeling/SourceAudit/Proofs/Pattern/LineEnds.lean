import SourceAudit.Proofs.Pattern.Lines

/-!
# Patterns and line ends

A text may end its lines with a newline, or with a carriage return and a newline. Lines are cut at newlines only, so
the carriage return stays behind as the last character of a line; in the whole text it stands in front of the newline.
Either way it is one more character that a pattern may take or look at.

Most patterns do not notice it. A run of characters that goes across a newline takes the carriage return as well, one
that stays on a line stops in front of it or takes it at the very end, and neither a newline nor a carriage return
belongs to a word. What remains is a run that ends between the two. What comes next then sees a newline where it would
have seen the same newline, but a different character in front of it. This does no harm unless the next thing asks for
the character in front, and it cannot even happen if the next thing needs a character other than a newline.

Results:
* `Pattern.run_needsInk`: a pattern that begins with ink matches only where there is some.
* `Pattern.run_agree`: a pattern that ignores returns cannot tell the two kinds of line ends apart.
* `Pattern.occursIn_returned`, `Pattern.find?_returned`: it occurs in the same texts, and on a line at the same place.
* `Text.lines_withReturns`: the lines of a text with returns are its lines, each perhaps with a return at its end.
-/
namespace SourceAudit

/-! ## Carriage returns -/

namespace Text

/-- A text with a carriage return in front of each newline. -/
def withReturns (text : List Char) : List Char := text.flatMap fun c => if c = '\n' then ['\r', '\n'] else [c]

/-- What is behind a place, before and after carriage returns are put in: there is one in front of each newline, and
perhaps one at the end, as on a line that is taken by itself. -/
inductive Returned : List Char → List Char → Prop
  | done : Returned [] []
  | ended : Returned [] ['\r']
  | char {c : Char} {rest rest' : List Char} (plain : c ≠ '\n') (next : Returned rest rest') :
      Returned (c :: rest) (c :: rest')
  | newline {rest rest' : List Char} (next : Returned rest rest') : Returned ('\n' :: rest) ('\r' :: '\n' :: rest')

/-- What is behind a place in front of a line end, and behind the place right after the carriage return that was put in
there. -/
inductive Halfway : List Char → List Char → Prop
  | ended : Halfway [] []
  | newline {rest rest' : List Char} (next : Returned rest rest') : Halfway ('\n' :: rest) ('\n' :: rest')

theorem returned_withReturns (text : List Char) : Returned text (withReturns text) := by
  induction text with
  | nil => exact .done
  | cons c rest ih =>
    by_cases hc : c = '\n'
    · subst hc
      exact .newline ih
    · have hcons : withReturns (c :: rest) = c :: withReturns rest := by simp [withReturns, hc]
      rw [hcons]
      exact .char hc ih

/-- The lines of a text with returns are its lines, each perhaps with a return at its end. -/
theorem lines_withReturns (text : List Char) :
    List.Forall₂ (fun line line' => '\n' ∉ line ∧ Returned line line') (lines text) (lines (withReturns text)) := by
  induction text with
  | nil => exact .cons ⟨List.not_mem_nil, .done⟩ .nil
  | cons c rest ih =>
    obtain ⟨line, more, hlines⟩ := List.exists_cons_of_ne_nil (lines_ne_nil rest)
    obtain ⟨line', more', hlines'⟩ := List.exists_cons_of_ne_nil (lines_ne_nil (withReturns rest))
    by_cases hc : c = '\n'
    · subst hc
      have hreturn : lines (withReturns ('\n' :: rest)) = ['\r'] :: lines (withReturns rest) :=
        lines_cons (by decide) (lines_newline (withReturns rest))
      rw [lines_newline, hreturn]
      exact .cons ⟨List.not_mem_nil, .ended⟩ ih
    · have hcons : withReturns (c :: rest) = c :: withReturns rest := by simp [withReturns, hc]
      rw [hlines, hlines'] at ih
      rw [hcons, lines_cons hc hlines, lines_cons hc hlines']
      cases ih with
      | cons hline hmore =>
        refine .cons ⟨?_, .char hc hline.2⟩ hmore
        simpa using ⟨Ne.symm hc, hline.1⟩

end Text

namespace Pattern

open Text (Returned Halfway)

/-! ## Ink -/

/-- A goal that is met only in front of a character other than a newline. -/
def Goal.NeedsInk (k : Goal) : Prop := ∀ before, k before [] = false ∧ ∀ rest, k before ('\n' :: rest) = false

/-- Whether a pattern matches only in front of a character other than a newline, given whether this holds of what comes
next. -/
def beginsWithInk (next : Bool) : Pattern → Bool
  | .one ok => !ok '\n'
  | .many ok => !ok '\n' && next
  | .seq p q => p.beginsWithInk (q.beginsWithInk next)
  | .alt p q => p.beginsWithInk next && q.beginsWithInk next
  | _ => next

/-- A pattern that begins with ink matches only where there is some. -/
theorem run_needsInk {p : Pattern} {next : Bool} (hp : p.beginsWithInk next = true) {k : Goal}
    (hk : next = true → k.NeedsInk) : Goal.NeedsInk (p.run k) := by
  induction p generalizing next k with
  | empty => exact hk hp
  | one ok =>
    simp only [beginsWithInk, Bool.not_eq_true'] at hp
    exact fun before => ⟨rfl, fun rest => by simp [run, hp]⟩
  | many ok =>
    simp only [beginsWithInk, Bool.and_eq_true, Bool.not_eq_true'] at hp
    exact fun before => ⟨(hk hp.2 before).1, fun rest => by simp [run, runMany, hp.1, (hk hp.2 before).2]⟩
  | wordEdge => exact fun before => ⟨by simp [run, (hk hp before).1], fun rest => by simp [run, (hk hp before).2]⟩
  | notAfter bad => exact fun before => ⟨by simp [run, (hk hp before).1], fun rest => by simp [run, (hk hp before).2]⟩
  | notBefore bad => exact fun before => ⟨by simp [run, (hk hp before).1], fun rest => by simp [run, (hk hp before).2]⟩
  | seq p q ihp ihq => exact ihp hp fun hq => ihq hq hk
  | alt p q ihp ihq =>
    simp only [beginsWithInk, Bool.and_eq_true] at hp
    intro before
    obtain ⟨hend, hnewline⟩ := ihp hp.1 hk before
    obtain ⟨hend', hnewline'⟩ := ihq hp.2 hk before
    exact ⟨by simp [run, hend, hend'], fun rest => by simp [run, hnewline, hnewline']⟩

/-! ## Returns -/

/-- Two goals, for a text without and with returns, agree: they are met at the same places, and if the second is met
between a return and a newline, the first is met in front of the newline. -/
structure Goal.Agree (k k' : Goal) : Prop where
  same : ∀ {rest rest' : List Char}, Returned rest rest' → ∀ before, k' before rest' = k before rest
  halfway : ∀ {rest rest' : List Char}, Halfway rest rest' → k' (some '\r') rest' = true →
    ∀ before, k before rest = true

/-- Whether a pattern cannot tell whether lines end with a carriage return, given whether what comes next begins with
ink. A single character must not be of a line end, unless any number of such characters follows it. -/
def ignoresReturns (next : Bool) : Pattern → Bool
  | .empty => true
  | .one ok => !ok '\r' && !ok '\n'
  | .many ok => !ok '\n' || ok '\r'
  | .wordEdge => true
  | .notAfter _ => next
  | .notBefore bad => !bad '\r' && !bad '\n'
  | .seq (.one ok) (.many more) =>
    (!more '\n' || more '\r') && (!ok '\r' && !ok '\n' || next && ok '\r' && ok '\n' && more '\n')
  | .seq p q => p.ignoresReturns (q.beginsWithInk next) && q.ignoresReturns next
  | .alt p q => p.ignoresReturns next && q.ignoresReturns next

variable {k k' : Goal}

theorem one_agree {ok : CharClass} (hreturn : ok '\r' = false) (hnewline : ok '\n' = false) (h : Goal.Agree k k') :
    Goal.Agree ((one ok).run k) ((one ok).run k') where
  same hrest before := by
    cases hrest with
    | done => rfl
    | ended => simp [run, hreturn]
    | char plain next => simp [run, h.same next]
    | newline next => simp [run, hreturn, hnewline]
  halfway hrest hmet before := by
    cases hrest with
    | ended => cases hmet
    | newline next => simp [run, hnewline] at hmet

theorem many_agree {ok : CharClass} (hok : (!ok '\n' || ok '\r') = true) (h : Goal.Agree k k') :
    Goal.Agree ((many ok).run k) ((many ok).run k') := by
  have hsame : ∀ {rest rest' : List Char}, Returned rest rest' →
      ∀ before, runMany ok k' before rest' = runMany ok k before rest := by
    intro rest rest' hrest
    induction hrest with
    | done => exact h.same .done
    | ended =>
      intro before
      have hstop := h.halfway .ended
      have hhere := h.same .ended before
      cases hmet : k' (some '\r') [] with
      | false => simp [runMany, hmet, hhere]
      | true => simp [runMany, hmet, hhere, hstop hmet before]
    | char plain next ih => exact fun before => by simp [runMany, h.same (.char plain next), ih]
    | @newline rest rest' next ih =>
      intro before
      have hstop := h.halfway (.newline next)
      have hhere := h.same (.newline next) before
      cases hmet : k' (some '\r') ('\n' :: rest') with
      | false =>
        simp only [runMany, hmet, hhere, ih, Bool.false_or]
        cases hnewline : ok '\n' with
        | false => simp
        | true =>
          rw [hnewline] at hok
          simp only [Bool.not_true, Bool.false_or] at hok
          simp [hok]
      | true => simp [runMany, hmet, hhere, hstop hmet before]
  refine ⟨hsame, fun hrest hmet before => ?_⟩
  cases hrest with
  | ended => exact h.halfway .ended hmet before
  | newline next =>
    simp only [run, runMany, Bool.or_eq_true, Bool.and_eq_true] at hmet ⊢
    rcases hmet with hmet | ⟨hnewline, hmet⟩
    · exact .inl (h.halfway (.newline next) hmet before)
    · exact .inr ⟨hnewline, hsame next (some '\n') ▸ hmet⟩

/-- At least one character of a line end: the run cannot end between a return and a newline, and takes both or neither.
-/
theorem oneMany_agree {ok more : CharClass} (hreturn : ok '\r' = true) (hnewline : ok '\n' = true)
    (hmore : (!more '\n' || more '\r') = true) (hacross : more '\n' = true) (h : Goal.Agree k k') (hink : k'.NeedsInk) :
    Goal.Agree ((seq (one ok) (many more)).run k) ((seq (one ok) (many more)).run k') where
  same hrest before := by
    have hmany := many_agree hmore h
    cases hrest with
    | done => rfl
    | ended => simp [run, runMany, (hink (some '\r')).1]
    | @char c rest rest' plain next =>
      have hnext : runMany more k' (some c) rest' = runMany more k (some c) rest := hmany.same next (some c)
      simp only [run, hnext]
    | newline next =>
      have hnext : runMany more k' (some '\n') _ = runMany more k (some '\n') _ :=
        hmany.same next (some '\n')
      simp [run, runMany, hreturn, hnewline, hacross, (hink (some '\r')).2, hnext]
  halfway hrest hmet before := by
    cases hrest with
    | ended => cases hmet
    | newline next =>
      have hnext : runMany more k' (some '\n') _ = runMany more k (some '\n') _ :=
        (many_agree hmore h).same next (some '\n')
      simpa [run, hnewline, hnext] using hmet

theorem wordEdge_agree (h : Goal.Agree k k') : Goal.Agree (wordEdge.run k) (wordEdge.run k') := by
  -- Neither character of a line end is a word character, and nor is the end of a line.
  have hreturn : Text.isWordChar '\r' = false := by decide +kernel
  have hnewline : Text.isWordChar '\n' = false := isWordChar_newline
  have hbehind : ∀ {rest rest' : List Char}, Returned rest rest' → wordBehind rest' = wordBehind rest := by
    intro rest rest' hrest
    cases hrest with
    | done => rfl
    | ended => exact hreturn
    | char plain next => rfl
    | newline next => exact hreturn.trans hnewline.symm
  refine ⟨fun hrest before => by simp only [run, hbehind hrest, h.same hrest], fun hrest hmet before => ?_⟩
  cases hrest with
  | ended => simp [run, wordBehind, hreturn] at hmet
  | newline next => simp [run, wordBehind, hreturn, hnewline] at hmet

theorem notBefore_agree {bad : CharClass} (hreturn : bad '\r' = false) (hnewline : bad '\n' = false)
    (h : Goal.Agree k k') : Goal.Agree ((notBefore bad).run k) ((notBefore bad).run k') where
  same hrest before := by
    have hhere := h.same hrest before
    cases hrest with
    | done => exact hhere
    | ended => simp [run, hreturn, hhere]
    | char plain next => simp only [run, hhere]
    | newline next => simp [run, hreturn, hnewline, hhere]
  halfway hrest hmet before := by
    have hhere := h.halfway hrest
    cases hrest with
    | ended => exact hhere hmet before
    | newline next =>
      simp only [run, Bool.and_eq_true] at hmet ⊢
      exact ⟨hmet.1, hhere hmet.2 before⟩

/-- A pattern that ignores returns cannot tell the two kinds of line ends apart. -/
theorem run_agree {p : Pattern} {next : Bool} (hp : p.ignoresReturns next = true) (h : Goal.Agree k k')
    (hink : next = true → k'.NeedsInk) : Goal.Agree (p.run k) (p.run k') := by
  fun_induction ignoresReturns next p generalizing k k' with
  | case1 next => exact h
  | case2 next ok =>
    simp only [Bool.and_eq_true, Bool.not_eq_true'] at hp
    exact one_agree hp.1 hp.2 h
  | case3 next ok => exact many_agree hp h
  | case4 next => exact wordEdge_agree h
  | case5 next bad =>
    -- What comes next is not met at a line end, so nobody asks for the character in front of it.
    refine ⟨fun hrest before => by simp only [run, h.same hrest], fun hrest hmet before => ?_⟩
    cases hrest with
    | ended => simp [run, (hink hp (some '\r')).1] at hmet
    | newline next => simp [run, (hink hp (some '\r')).2] at hmet
  | case6 next bad =>
    simp only [Bool.and_eq_true, Bool.not_eq_true'] at hp
    exact notBefore_agree hp.1 hp.2 h
  | case7 next ok more =>
    simp only [Bool.and_eq_true, Bool.or_eq_true (_ && _), Bool.not_eq_true'] at hp
    obtain ⟨hmore, ⟨hreturn, hnewline⟩ | ⟨⟨⟨hnext, hreturn⟩, hnewline⟩, hacross⟩⟩ := hp
    · exact one_agree hreturn hnewline (many_agree hmore h)
    · exact oneMany_agree hreturn hnewline hmore hacross h (hink hnext)
  | case8 next p q _ ihp ihq =>
    simp only [Bool.and_eq_true] at hp
    exact ihp hp.1 (ihq hp.2 h hink) fun hq => run_needsInk hq hink
  | case9 next p q ihp ihq =>
    simp only [Bool.and_eq_true] at hp
    have hleft := ihp hp.1 h hink
    have hright := ihq hp.2 h hink
    refine ⟨fun hrest before => by simp only [run, hleft.same hrest, hright.same hrest], fun hrest hmet before => ?_⟩
    simp only [run, Bool.or_eq_true] at hmet ⊢
    exact hmet.imp (hleft.halfway hrest · before) (hright.halfway hrest · before)

/-! ## Occurrences -/

variable {p : Pattern}

theorem startsAt_agree (hp : p.ignoresReturns false = true) : Goal.Agree p.startsAt p.startsAt :=
  run_agree hp ⟨fun _ _ => rfl, fun _ _ _ => rfl⟩ nofun

/-- Nothing starts between a return and a line end unless it also starts in front of them. -/
theorem startsAt_halfway (hp : p.ignoresReturns false = true) {rest rest' : List Char} (hrest : Halfway rest rest')
    {before : Option Char} (h : p.startsAt before rest = false) : p.startsAt (some '\r') rest' = false := by
  rw [Bool.eq_false_iff] at h ⊢
  exact fun hmet => h ((startsAt_agree hp).halfway hrest hmet before)

theorem findFrom_returned (hp : p.ignoresReturns false = true) {line line' : List Char} (hline : Returned line line')
    (honly : '\n' ∉ line) (i : Nat) (before : Option Char) : p.findFrom i before line' = p.findFrom i before line := by
  induction hline generalizing i before with
  | done => rfl
  | ended =>
    have hhere := (startsAt_agree hp).same .ended before
    cases hmet : p.startsAt before [] with
    | true => simp [findFrom, hhere, hmet]
    | false => simp [findFrom, hhere, hmet, startsAt_halfway hp .ended hmet]
  | @char c rest rest' plain next ih =>
    have hhere := (startsAt_agree hp).same (.char plain next) before
    rw [findFrom, findFrom, hhere, ih fun h => honly (.tail c h)]
  | newline next => exact absurd (.head _) honly

theorem find?_returned (hp : p.ignoresReturns false = true) {line line' : List Char} (hline : Returned line line')
    (honly : '\n' ∉ line) : p.find? line' = p.find? line :=
  findFrom_returned hp hline honly 0 none

/-- A pattern that ignores returns starts somewhere with them exactly if it does without, though perhaps not at the same
number. -/
theorem isSome_findFrom_returned (hp : p.ignoresReturns false = true) {text text' : List Char}
    (htext : Returned text text') (i j : Nat) (before : Option Char) :
    (p.findFrom j before text').isSome = (p.findFrom i before text).isSome := by
  induction htext generalizing i j before with
  | done => cases hmet : p.startsAt before [] <;> simp [findFrom, hmet]
  | ended =>
    have hhere := (startsAt_agree hp).same .ended before
    cases hmet : p.startsAt before [] with
    | true => simp [findFrom, hhere, hmet]
    | false => simp [findFrom, hhere, hmet, startsAt_halfway hp .ended hmet]
  | @char c rest rest' plain next ih =>
    have hhere := (startsAt_agree hp).same (.char plain next) before
    cases hmet : p.startsAt before (c :: rest) with
    | true => simp [findFrom, hhere, hmet]
    | false => simpa [findFrom, hhere, hmet] using ih (i + 1) (j + 1) (some c)
  | @newline rest rest' next ih =>
    have hhere := (startsAt_agree hp).same (.newline next) before
    cases hmet : p.startsAt before ('\n' :: rest) with
    | true => simp [findFrom, hhere, hmet]
    | false =>
      have hstop := startsAt_halfway hp (.newline next) hmet
      simpa [findFrom, hhere, hmet, hstop] using ih (i + 1) (j + 1 + 1) (some '\n')

/-- A pattern that ignores returns occurs in a text with them exactly if it occurs in the text without. -/
theorem occursIn_returned (hp : p.ignoresReturns false = true) {text text' : List Char} (htext : Returned text text') :
    p.occursIn text' = p.occursIn text :=
  isSome_findFrom_returned hp htext 0 0 none

theorem occursIn_withReturns (hp : p.ignoresReturns false = true) (text : List Char) :
    p.occursIn (Text.withReturns text) = p.occursIn text :=
  occursIn_returned hp (Text.returned_withReturns text)

end Pattern
end SourceAudit
