import SourceAudit.Proofs.Text.Utf8
import SourceAudit.Text.Lowercase

/-!
# Lower case and ASCII

Lower case is a matter of tables and, for one letter, of the text around it. For most of ASCII none of this counts: a
*plain* character is the lower-case form of an ASCII character only, and of the one that the case of ASCII letters
gives. Two ASCII letters are not plain: `i` is the lower-case form of a dotted capital too, `k` that of the sign for a
unit.

So whether the lower-case form of a text is a given plain text does not depend on what surrounds it, and a character
that is no letter stays where it is.

Results:
* `lowerChar_eq_iff`: a plain character is the lower-case form of ASCII characters only.
* `agreeAnyCase_newline`: no character but the newline is a newline in another case.
* `lowers_lowerFrom`: a text is lowered character by character, whatever surrounds it.
* `Lowers.eq_iff`: a plain text is the lower-case form of ASCII texts only.
* `Lowers.split`, `Lowers.mem_dot`, `Lowers.all_dots`: dots stay where they are.
-/
namespace SourceAudit.Text

/-! ## Characters -/

theorem toNat_toLower (c : Char) :
    c.toLower.toNat = if 65 ≤ c.toNat ∧ c.toNat ≤ 90 then c.toNat + 32 else c.toNat := by
  have hA : c.val ≥ 'A'.val ↔ 65 ≤ c.toNat := UInt32.le_iff_toNat_le
  have hZ : c.val ≤ 'Z'.val ↔ c.toNat ≤ 90 := UInt32.le_iff_toNat_le
  unfold Char.toLower
  by_cases h : 65 ≤ c.toNat ∧ c.toNat ≤ 90
  · rw [dif_pos (by rwa [hA, hZ]), if_pos h]
    show (c.val + ('a'.val - 'A'.val)).toNat = c.val.toNat + 32
    have hc : c.val.toNat ≤ 90 := h.2
    rw [UInt32.toNat_add]
    show (c.val.toNat + 32) % 2 ^ 32 = c.val.toNat + 32
    omega
  · rw [dif_neg (by rwa [hA, hZ]), if_neg h]

/-- Whether a character is in ASCII and is not the lower-case form of a character beyond ASCII. -/
def isPlain (c : Char) : Bool := c.toNat < 128 && c != 'i' && c != 'k'

theorem isPlain_iff {c : Char} : isPlain c = true ↔ c.toNat < 128 ∧ c ≠ 'i' ∧ c ≠ 'k' := by
  simp [isPlain, and_assoc]

/-- Whether all lower-case forms of a run of capital letters are characters beyond ASCII, the two exceptions apart. -/
def CaseRun.isBeyondAscii (r : CaseRun) : Bool :=
  (128 ≤ r.first + r.offset && r.last + r.offset < 0xD800) ||
  (0xE000 ≤ r.first + r.offset && r.last + r.offset < 0x110000) ||
  (r.first = r.last && (r.first + r.offset = 105 || r.first + r.offset = 107))

theorem isBeyondAscii_of_mem {r : CaseRun} (h : r ∈ caseRuns) : r.isBeyondAscii = true := by
  have hall : caseRuns.toList.all CaseRun.isBeyondAscii = true := by decide +kernel
  exact List.all_eq_true.1 hall r (Array.mem_toList_iff.2 h)

theorem not_isPlain_of_run {r : CaseRun} (hr : r ∈ caseRuns) {n : Nat} (hfirst : r.first ≤ n) (hlast : n ≤ r.last) :
    isPlain (Char.ofNat (n + r.offset).toNat) = false := by
  rw [Bool.eq_false_iff]
  intro hplain
  obtain ⟨hascii, hi, hk⟩ := isPlain_iff.1 hplain
  have hrun := isBeyondAscii_of_mem hr
  simp only [CaseRun.isBeyondAscii, Bool.or_eq_true, Bool.and_eq_true, decide_eq_true_eq] at hrun
  rcases hrun with (hrun | hrun) | ⟨hone, hrun⟩
  · rw [Utf8.toNat_ofNat (by omega)] at hascii
    omega
  · rw [Utf8.toNat_ofNat (by omega)] at hascii
    omega
  · obtain rfl : n = r.first := by omega
    rcases hrun with hrun | hrun
    · exact hi (by rw [hrun]; rfl)
    · exact hk (by rw [hrun]; rfl)

theorem not_isPlain_of_beyond {c : Char} (h : ¬ c.toNat < 128) : isPlain c = false := by
  simp [isPlain, h]

theorem not_isPlain_lowerChar {c : Char} (h : ¬ c.toNat < 128) : isPlain (lowerChar c) = false := by
  unfold lowerChar
  rw [if_neg h]
  split
  · next r hfind =>
    split
    · have hrange := Array.find?_some hfind
      simp only [Bool.and_eq_true, decide_eq_true_eq] at hrange
      exact not_isPlain_of_run (Array.mem_of_find?_eq_some hfind) hrange.1 hrange.2
    · exact not_isPlain_of_beyond h
  · exact not_isPlain_of_beyond h

/-- A plain character is the lower-case form of ASCII characters only. -/
theorem lowerChar_eq_iff {c d : Char} (hd : isPlain d = true) : lowerChar c = d ↔ c.toLower = d := by
  by_cases hc : c.toNat < 128
  · rw [lowerChar, if_pos hc]
  · constructor
    · intro h
      have hplain := not_isPlain_lowerChar hc
      rw [h, hd] at hplain
      cases hplain
    · intro h
      have hascii := (isPlain_iff.1 hd).1
      rw [← h, toNat_toLower] at hascii
      split at hascii <;> omega

theorem toLower_eq_iff {c d : Char} (hd : d.toNat < 65) : c.toLower = d ↔ c = d := by
  rw [← Char.toNat_inj, ← Char.toNat_inj, toNat_toLower]
  split <;> omega

theorem lowerChar_eq_dot {c : Char} : lowerChar c = '.' ↔ c = '.' :=
  (lowerChar_eq_iff (by decide)).trans (toLower_eq_iff (by decide))

/-- No character but the newline is a newline in another case. -/
theorem agreeAnyCase_newline {c : Char} : agreeAnyCase c '\n' = true ↔ c = '\n' := by
  have hself : lowerChar '\n' = '\n' := (lowerChar_eq_iff (by decide)).2 rfl
  have hshared : sharedCapitals.any (·.contains '\n') = false := by decide
  have hnone : (sharedCapitals.any fun letters => letters.contains (lowerChar c) && letters.contains '\n') = false := by
    rw [List.any_eq_false] at hshared ⊢
    intro letters hmem h
    exact hshared letters hmem ((Bool.and_eq_true ..).mp h).2
  unfold agreeAnyCase
  simp only [hself, hnone, Bool.or_false, beq_iff_eq]
  exact (lowerChar_eq_iff (by decide)).trans (toLower_eq_iff (by decide))

/-! ## Texts -/

/-- A text is the lower-case form of another one in some surroundings. -/
inductive Lowers : List Char → List Char → Prop
  | nil : Lowers [] []
  | plain {c : Char} {cs ds : List Char} (hdot : c ≠ 'İ') (hsigma : c ≠ 'Σ') :
      Lowers cs ds → Lowers (c :: cs) (lowerChar c :: ds)
  | dotted {cs ds : List Char} : Lowers cs ds → Lowers ('İ' :: cs) ('i' :: '\u0307' :: ds)
  | sigma {d : Char} {cs ds : List Char} (hd : d = 'ς' ∨ d = 'σ') : Lowers cs ds → Lowers ('Σ' :: cs) (d :: ds)

/-- A text is lowered character by character, whatever surrounds it. -/
theorem lowers_lowerFrom (before cs : List Char) : Lowers cs (lowerFrom before cs) := by
  induction cs generalizing before with
  | nil => exact .nil
  | cons c after ih =>
    unfold lowerFrom lowerIn
    split
    · next hdot =>
      subst hdot
      exact .dotted (ih _)
    · next hdot =>
      split
      · next hsigma =>
        subst hsigma
        refine .sigma ?_ (ih _)
        split
        · exact .inl rfl
        · exact .inr rfl
      · next hsigma => exact .plain hdot hsigma (ih _)

theorem lowers_lower (s : String) : Lowers s.toList (lower s).toList := by
  rw [lower, String.toList_ofList]
  exact lowers_lowerFrom [] s.toList

/-- A plain text is the lower-case form of ASCII texts only. -/
theorem Lowers.eq_iff {cs ds word : List Char} (h : Lowers cs ds) (hword : ∀ d ∈ word, isPlain d = true) :
    ds = word ↔ cs.map Char.toLower = word := by
  induction h generalizing word with
  | nil => rfl
  | plain _ _ _ ih =>
    cases word with
    | nil => simp
    | cons d word =>
      obtain ⟨hd, hword⟩ := List.forall_mem_cons.1 hword
      rw [List.map_cons, List.cons.injEq, List.cons.injEq, lowerChar_eq_iff hd, ih hword]
  | dotted _ ih =>
    -- On the left the word begins with an `i`, on the right with a character beyond ASCII.
    constructor
    · rintro rfl
      exact absurd (hword 'i' List.mem_cons_self) (by decide)
    · rintro rfl
      exact absurd (hword _ List.mem_cons_self) (by decide)
  | sigma hd _ ih =>
    constructor
    · rintro rfl
      rcases hd with rfl | rfl <;> exact absurd (hword _ List.mem_cons_self) (by decide)
    · rintro rfl
      exact absurd (hword _ List.mem_cons_self) (by decide)

/-- A dot keeps its place between what is in front of it and what is behind it. -/
theorem Lowers.split {xs ys ds : List Char} (h : Lowers (xs ++ '.' :: ys) ds) :
    ∃ us vs, ds = us ++ '.' :: vs ∧ Lowers xs us ∧ Lowers ys vs := by
  induction xs generalizing ds with
  | nil =>
    cases h with
    | plain _ _ hrest => exact ⟨[], _, by rw [lowerChar_eq_dot.2 rfl]; rfl, .nil, hrest⟩
  | cons x xs ih =>
    cases h with
    | plain hdot hsigma hrest =>
      obtain ⟨us, vs, rfl, hus, hvs⟩ := ih hrest
      exact ⟨_, vs, rfl, .plain hdot hsigma hus, hvs⟩
    | dotted hrest =>
      obtain ⟨us, vs, rfl, hus, hvs⟩ := ih hrest
      exact ⟨_, vs, rfl, .dotted hus, hvs⟩
    | sigma hd hrest =>
      obtain ⟨us, vs, rfl, hus, hvs⟩ := ih hrest
      exact ⟨_, vs, rfl, .sigma hd hus, hvs⟩

theorem Lowers.mem_dot {cs ds : List Char} (h : Lowers cs ds) : '.' ∈ ds ↔ '.' ∈ cs := by
  induction h with
  | nil => rfl
  | plain _ _ _ ih => rw [List.mem_cons, List.mem_cons, ih, eq_comm, lowerChar_eq_dot, eq_comm]
  | dotted _ ih => simp [ih]
  | sigma hd _ ih => rcases hd with rfl | rfl <;> simp [ih]

/-- A lowered text is all dots exactly if the text is. -/
theorem Lowers.all_dots {cs ds : List Char} (h : Lowers cs ds) : ds.all (· == '.') = cs.all (· == '.') := by
  induction h with
  | nil => rfl
  | plain _ _ _ ih =>
    rw [List.all_cons, List.all_cons, ih]
    congr 1
    rw [Bool.eq_iff_iff, beq_iff_eq, beq_iff_eq, lowerChar_eq_dot]
  | dotted _ _ => rfl
  | sigma hd _ _ => rcases hd with rfl | rfl <;> rfl

end SourceAudit.Text
