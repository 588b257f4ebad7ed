import SourceAudit.Proofs.Pattern.Lines

/-!
# The pieces that a pattern takes

`Pattern.run` looks for a match with whatever is to follow as a goal. What it finds is said here without goals: a
pattern *takes* a piece of text between what stands in front of it and the characters behind it. Sequences take one
piece after another and alternatives take what either takes, so the pieces of a pattern can be read off its parts.

A match in a text is a piece that stands there, from one place to another; the search finds the first place at which one
starts.

Results:
* `run_iff`: a run succeeds exactly if the pattern takes a piece behind which the goal holds.
* `occursIn_iff_spans`, `find?_eq_some_iff_spans`: the search finds the matches, and of these the leftmost.
* `takes_sequence_append`, `takes_anyOf`, `takes_word`: the pieces of sequences, alternatives and words.
-/
namespace SourceAudit.Pattern

/-- A pattern takes a piece of text that stands between a character, if there is one, and the characters behind it. -/
def Takes : Pattern → (before : Option Char) → (piece rest : List Char) → Prop
  | .empty, _, piece, _ => piece = []
  | .one ok, _, piece, _ => ∃ c, ok c = true ∧ piece = [c]
  | .many ok, _, piece, _ => ∀ c ∈ piece, ok c = true
  | .wordEdge, before, piece, rest => piece = [] ∧ before.any Text.isWordChar ≠ wordBehind rest
  | .notAfter bad, before, piece, _ => piece = [] ∧ ∀ c ∈ before, bad c = false
  | .notBefore bad, _, piece, rest => piece = [] ∧ ∀ c ∈ rest.head?, bad c = false
  | .seq p q, before, piece, rest =>
    ∃ x y, piece = x ++ y ∧ p.Takes before x (y ++ rest) ∧ q.Takes (x.getLast?.or before) y rest
  | .alt p q, before, piece, rest => p.Takes before piece rest ∨ q.Takes before piece rest

/-! ## Runs -/

theorem getLast?_append_or (before : Option Char) (x y : List Char) :
    (x ++ y).getLast?.or before = y.getLast?.or (x.getLast?.or before) := by
  rw [List.getLast?_append, Option.or_assoc]

theorem runMany_iff {ok : CharClass} {k : Goal} {before : Option Char} {text : List Char} :
    runMany ok k before text = true ↔
      ∃ piece rest, text = piece ++ rest ∧ (∀ c ∈ piece, ok c = true) ∧ k (piece.getLast?.or before) rest = true := by
  induction text generalizing before with
  | nil =>
    constructor
    · intro h
      exact ⟨[], [], rfl, by simp, h⟩
    · intro h
      obtain ⟨piece, rest, htext, _, hk⟩ := h
      obtain ⟨rfl, rfl⟩ := List.append_eq_nil_iff.1 htext.symm
      exact hk
  | cons c text ih =>
    rw [runMany, Bool.or_eq_true, Bool.and_eq_true, ih]
    constructor
    · intro h
      rcases h with hk | ⟨hc, piece, rest, rfl, hpiece, hk⟩
      · exact ⟨[], c :: text, rfl, by simp, hk⟩
      · refine ⟨c :: piece, rest, rfl, List.forall_mem_cons.2 ⟨hc, hpiece⟩, ?_⟩
        rwa [getLast?_cons_or]
    · intro h
      obtain ⟨piece, rest, htext, hpiece, hk⟩ := h
      cases piece with
      | nil =>
        obtain rfl : c :: text = rest := htext
        exact .inl hk
      | cons d piece =>
        obtain ⟨rfl, rfl⟩ := List.cons.inj htext
        rw [getLast?_cons_or] at hk
        obtain ⟨hc, hpiece⟩ := List.forall_mem_cons.1 hpiece
        exact .inr ⟨hc, piece, rest, rfl, hpiece, hk⟩

/-- A condition on a place takes the empty piece. -/
theorem exists_empty_piece (P : List Char → Prop) (k : Goal) (before : Option Char) (text : List Char) :
    (∃ piece rest, text = piece ++ rest ∧ (piece = [] ∧ P rest) ∧ k (piece.getLast?.or before) rest = true) ↔
      P text ∧ k before text = true := by
  constructor
  · intro h
    obtain ⟨piece, rest, htext, ⟨hpiece, hP⟩, hk⟩ := h
    subst hpiece htext
    exact ⟨hP, hk⟩
  · intro h
    obtain ⟨hP, hk⟩ := h
    exact ⟨[], text, rfl, ⟨rfl, hP⟩, hk⟩

/-- A run succeeds exactly if the pattern takes a piece behind which the goal holds. -/
theorem run_iff {p : Pattern} {k : Goal} {before : Option Char} {text : List Char} :
    p.run k before text = true ↔
      ∃ piece rest, text = piece ++ rest ∧ p.Takes before piece rest ∧ k (piece.getLast?.or before) rest = true := by
  induction p generalizing k before text with
  | empty =>
    have h := exists_empty_piece (fun _ => True) k before text
    simp only [and_true, true_and] at h
    exact h.symm
  | one ok =>
    constructor
    · intro h
      cases text with
      | nil => cases h
      | cons c rest =>
        simp only [run, Bool.and_eq_true] at h
        exact ⟨[c], rest, rfl, ⟨c, h.1, rfl⟩, h.2⟩
    · intro h
      obtain ⟨piece, rest, htext, ⟨c, hc, hpiece⟩, hk⟩ := h
      subst hpiece htext
      simp only [List.singleton_append, run, Bool.and_eq_true]
      exact ⟨hc, hk⟩
  | many ok => exact runMany_iff
  | wordEdge =>
    simp only [run, Bool.and_eq_true, bne_iff_ne]
    exact (exists_empty_piece (before.any Text.isWordChar ≠ wordBehind ·) k before text).symm
  | notAfter bad =>
    refine Iff.trans ?_ (exists_empty_piece (fun _ => ∀ c ∈ before, bad c = false) k before text).symm
    cases before with
    | none => simp [run]
    | some c => simp [run]
  | notBefore bad =>
    refine Iff.trans ?_ (exists_empty_piece (fun rest => ∀ c ∈ rest.head?, bad c = false) k before text).symm
    cases text with
    | nil => simp [run]
    | cons c rest => simp [run]
  | seq p q ihp ihq =>
    simp only [run, ihp, ihq]
    constructor
    · intro h
      obtain ⟨x, _, htext, hp, y, rest, hrest, hq, hk⟩ := h
      subst hrest htext
      refine ⟨x ++ y, rest, (List.append_assoc ..).symm, ⟨x, y, rfl, hp, hq⟩, ?_⟩
      rwa [getLast?_append_or]
    · intro h
      obtain ⟨_, rest, htext, ⟨x, y, hpiece, hp, hq⟩, hk⟩ := h
      subst hpiece htext
      rw [getLast?_append_or] at hk
      exact ⟨x, y ++ rest, List.append_assoc .., hp, y, rest, rfl, hq, hk⟩
  | alt p q ihp ihq =>
    simp only [run, Bool.or_eq_true, ihp, ihq, Takes, or_and_right, and_or_left, exists_or]

/-! ## Matches in a text -/

/-- A match of a pattern in a text, from one place to another. -/
def Spans (p : Pattern) (text : List Char) (start stop : Nat) : Prop :=
  ∃ pre piece rest, text = pre ++ piece ++ rest ∧ pre.length = start ∧ pre.length + piece.length = stop ∧
    p.Takes (pre.getLast?) piece rest

theorem matchesAt_iff {p : Pattern} {text : List Char} {n : Nat} :
    p.MatchesAt text n ↔ ∃ stop, p.Spans text n stop := by
  unfold MatchesAt startsAfter startsAt
  rw [run_iff]
  constructor
  · intro h
    obtain ⟨hn, piece, rest, hdrop, htakes, _⟩ := h
    rw [Option.or_none] at htakes
    refine ⟨_, text.take n, piece, rest, ?_, List.length_take_of_le hn, rfl, htakes⟩
    rw [List.append_assoc, ← hdrop, List.take_append_drop]
  · intro h
    obtain ⟨stop, pre, piece, rest, htext, hstart, _, htakes⟩ := h
    subst htext hstart
    rw [List.append_assoc, List.take_left, List.drop_left, Option.or_none]
    exact ⟨by simp, piece, rest, rfl, htakes, rfl⟩

/-- What is found is the leftmost match. -/
theorem find?_eq_some_iff_spans {p : Pattern} {text : List Char} {n : Nat} :
    p.find? text = some n ↔ (∃ stop, p.Spans text n stop) ∧ ∀ start stop, p.Spans text start stop → n ≤ start := by
  rw [find?_eq_some_iff, matchesAt_iff]
  refine and_congr_right fun _ => ⟨fun h start stop hspan => ?_, fun h start hlt hmatch => ?_⟩
  · exact Nat.le_of_not_lt fun hlt => h start hlt (matchesAt_iff.2 ⟨stop, hspan⟩)
  · obtain ⟨stop, hspan⟩ := matchesAt_iff.1 hmatch
    exact absurd (h start stop hspan) (Nat.not_le_of_lt hlt)

/-- A pattern occurs in a text exactly if it has a match there. -/
theorem occursIn_iff_spans {p : Pattern} {text : List Char} :
    p.occursIn text = true ↔ ∃ start stop, p.Spans text start stop := by
  rw [occursIn_iff]
  constructor
  · intro h
    obtain ⟨pre, post, htext, hstarts⟩ := h
    obtain ⟨piece, rest, hpost, htakes, _⟩ := run_iff.1 hstarts
    exact ⟨_, _, pre, piece, rest, by rw [htext, hpost, List.append_assoc], rfl, rfl, htakes⟩
  · intro h
    obtain ⟨_, _, pre, piece, rest, htext, _, _, htakes⟩ := h
    exact ⟨pre, piece ++ rest, by rw [htext, List.append_assoc], run_iff.2 ⟨piece, rest, rfl, htakes, rfl⟩⟩

/-! ## Sequences, alternatives and words -/

theorem takes_sequence_cons {p : Pattern} {ps : List Pattern} {before : Option Char} {piece rest : List Char} :
    (sequence (p :: ps)).Takes before piece rest ↔
      ∃ x y, piece = x ++ y ∧ p.Takes before x (y ++ rest) ∧ (sequence ps).Takes (x.getLast?.or before) y rest := by
  cases ps with
  | nil =>
    constructor
    · intro h
      exact ⟨piece, [], (List.append_nil piece).symm, h, rfl⟩
    · intro h
      obtain ⟨x, y, hpiece, hp, hy⟩ := h
      obtain rfl : y = [] := hy
      rw [hpiece, List.append_nil]
      exact hp
  | cons q qs => exact Iff.rfl

/-- Patterns one after the other take pieces one after the other. -/
theorem takes_sequence_append {ps qs : List Pattern} {before : Option Char} {piece rest : List Char} :
    (sequence (ps ++ qs)).Takes before piece rest ↔
      ∃ x y, piece = x ++ y ∧ (sequence ps).Takes before x (y ++ rest) ∧
        (sequence qs).Takes (x.getLast?.or before) y rest := by
  induction ps generalizing before piece with
  | nil =>
    constructor
    · intro h
      exact ⟨[], piece, rfl, rfl, h⟩
    · intro h
      obtain ⟨x, y, hpiece, hx, hy⟩ := h
      obtain rfl : x = [] := hx
      rw [hpiece]
      exact hy
  | cons p ps ih =>
    rw [List.cons_append, takes_sequence_cons]
    simp only [ih, takes_sequence_cons]
    constructor
    · intro h
      obtain ⟨x, _, hpiece, hp, y, z, hyz, hps, hqs⟩ := h
      subst hyz
      refine ⟨x ++ y, z, by rw [hpiece, List.append_assoc], ⟨x, y, rfl, ?_, hps⟩, ?_⟩
      · rwa [← List.append_assoc]
      · rwa [getLast?_append_or]
    · intro h
      obtain ⟨_, z, hpiece, ⟨x, y, hxy, hp, hps⟩, hqs⟩ := h
      subst hxy
      rw [getLast?_append_or] at hqs
      refine ⟨x, y ++ z, by rw [hpiece, List.append_assoc], ?_, y, z, rfl, hps, hqs⟩
      rwa [List.append_assoc]

theorem takes_anyOf {ps : List Pattern} {before : Option Char} {piece rest : List Char} :
    (anyOf ps).Takes before piece rest ↔ ∃ p ∈ ps, p.Takes before piece rest := by
  induction ps with
  | nil => simp [anyOf, never, Takes]
  | cons p ps ih =>
    cases ps with
    | nil => simp [anyOf]
    | cons q qs =>
      rw [List.exists_mem_cons_iff, ← ih]
      exact Iff.rfl

theorem takes_wordChars {cs : List Char} {before : Option Char} {piece rest : List Char} :
    (wordChars cs).Takes before piece rest ↔ piece = cs := by
  induction cs generalizing before piece with
  | nil => exact Iff.rfl
  | cons c cs ih =>
    rw [wordChars, List.map_cons, takes_sequence_cons]
    constructor
    · intro h
      obtain ⟨x, y, hpiece, ⟨d, hd, hx⟩, hy⟩ := h
      rw [hpiece, hx, ih.1 hy, eq_of_beq hd]
      rfl
    · intro hpiece
      exact ⟨[c], cs, hpiece, ⟨c, beq_self_eq_true c, rfl⟩, ih.2 rfl⟩

/-- A word takes itself. -/
theorem takes_word {s : String} {before : Option Char} {piece rest : List Char} :
    (word s).Takes before piece rest ↔ piece = s.toList := takes_wordChars

theorem takes_wordOf {words : List String} {before : Option Char} {piece rest : List Char} :
    (wordOf words).Takes before piece rest ↔ ∃ s ∈ words, piece = s.toList := by
  simp only [wordOf, takes_anyOf, List.mem_map, exists_exists_and_eq_and, takes_word]

/-! ## Characters that are not taken -/

/-- Whether no character class of a pattern admits a character. -/
def avoids (c : Char) : Pattern → Bool
  | .one ok => !ok c
  | .many ok => !ok c
  | .seq p q => p.avoids c && q.avoids c
  | .alt p q => p.avoids c && q.avoids c
  | _ => true

theorem not_mem_of_takes {p : Pattern} {c : Char} (hp : p.avoids c = true) {before : Option Char}
    {piece rest : List Char} (h : p.Takes before piece rest) : c ∉ piece := by
  induction p generalizing before piece rest with
  | empty => rw [show piece = [] from h]; exact List.not_mem_nil
  | one ok =>
    obtain ⟨d, hd, rfl⟩ := h
    rw [List.mem_singleton]
    rintro rfl
    simp [avoids, hd] at hp
  | many ok =>
    intro hc
    simp [avoids, h c hc] at hp
  | wordEdge => rw [h.1]; exact List.not_mem_nil
  | notAfter bad => rw [h.1]; exact List.not_mem_nil
  | notBefore bad => rw [h.1]; exact List.not_mem_nil
  | seq p q ihp ihq =>
    simp only [avoids, Bool.and_eq_true] at hp
    obtain ⟨x, y, rfl, hx, hy⟩ := h
    rw [List.mem_append, not_or]
    exact ⟨ihp hp.1 hx, ihq hp.2 hy⟩
  | alt p q ihp ihq =>
    simp only [avoids, Bool.and_eq_true] at hp
    rcases h with h | h
    · exact ihp hp.1 h
    · exact ihq hp.2 h

end SourceAudit.Pattern
