import SourceAudit.Number.Numeral
import SourceAudit.Proofs.Number.Shortest

/-!
# Real numbers are read as they are written

The text of a value is a sign, if it is negative, and then digits with a point, an exponent or both. The reader takes it
apart into the digits before the point, those behind it and the exponent, and these make a decimal that stands for the
number that was written. As this number lies in the reach of the value, the value is read.

Results:
* `splitDigits_append`: digits are split off where they end.
* `reads_positional`, `reads_scientific`: either notation is read as the number that it was made from.
* `readReal_text`: the text of a value in its one form is read as the value.
* `isCanonical_of_readReal`: what is read from any text is in the one form.
-/
namespace SourceAudit.Numeral

open Binary64

/-! ## Digits -/

/-- Digits as they are written. -/
def written (ks : List ℕ) : List Char := ks.map Nat.digitChar

def AreDigits (ks : List ℕ) : Prop := ∀ k ∈ ks, k < 10

theorem written_append (ks ls : List ℕ) : written (ks ++ ls) = written ks ++ written ls := List.map_append

theorem written_replicate (n : ℕ) : written (List.replicate n 0) = List.replicate n '0' := List.map_replicate

theorem AreDigits.append {ks ls : List ℕ} (hks : AreDigits ks) (hls : AreDigits ls) : AreDigits (ks ++ ls) :=
  List.forall_mem_append.2 ⟨hks, hls⟩

theorem areDigits_replicate (n : ℕ) : AreDigits (List.replicate n 0) := by
  intro k hk
  rw [List.eq_of_mem_replicate hk]
  decide

theorem decimalValue?_digitChar : ∀ k < 10, Text.decimalValue? (Nat.digitChar k) = some k := by decide

theorem digitChar_ne_underscore : ∀ k < 10, Nat.digitChar k ≠ '_' := by decide

theorem valueOf_append (ks ls : List ℕ) : valueOf (ks ++ ls) = valueOf ks * 10 ^ ls.length + valueOf ls := by
  have hfold : ∀ n : ℕ, ls.foldl (fun n d => 10 * n + d) n = n * 10 ^ ls.length + valueOf ls := by
    induction ls with
    | nil => intro n; simp [valueOf]
    | cons l ls ih =>
      intro n
      have hzero : valueOf (l :: ls) = (10 * 0 + l) * 10 ^ ls.length + valueOf ls := ih (10 * 0 + l)
      rw [List.foldl_cons, ih, hzero, List.length_cons, pow_succ]
      ring
  rw [valueOf, List.foldl_append]
  exact hfold _

theorem valueOf_replicate (n : ℕ) : valueOf (List.replicate n 0) = 0 := by
  induction n with
  | zero => rfl
  | succ n ih => rw [List.replicate_succ', valueOf_append, ih]; rfl

theorem valueOf_padded (n : ℕ) (ks : List ℕ) : valueOf (List.replicate n 0 ++ ks) = valueOf ks := by
  rw [valueOf_append, valueOf_replicate, zero_mul, zero_add]

theorem valueOf_singleton (k : ℕ) : valueOf [k] = k := Nat.zero_add k

theorem exists_toDigits (n : ℕ) :
    ∃ ks, Nat.toDigits 10 n = written ks ∧ AreDigits ks ∧ ks ≠ [] ∧ valueOf ks = n := by
  induction n using Nat.strongRecOn with
  | ind n ih =>
    rw [Nat.toDigits_eq_if (by decide)]
    split
    · next h => exact ⟨[n], rfl, by simpa [AreDigits] using h, by simp, valueOf_singleton n⟩
    · next h =>
      obtain ⟨ks, hks, hdigits, -, hvalue⟩ := ih (n / 10) (by omega)
      refine ⟨ks ++ [n % 10], by rw [hks, written_append]; rfl, hdigits.append ?_, by simp, ?_⟩
      · simp [AreDigits, Nat.mod_lt]
      · rw [valueOf_append, valueOf_singleton, hvalue, List.length_singleton, pow_one]
        omega

/-- What follows some digits does not go on with them. -/
def EndsDigits (rest : List Char) : Prop := moreDigits rest = ([], rest)

theorem moreDigits_append {ks : List ℕ} (hks : AreDigits ks) {rest : List Char} (hrest : EndsDigits rest) :
    moreDigits (written ks ++ rest) = (ks, rest) := by
  induction ks with
  | nil => exact hrest
  | cons k ks ih =>
    obtain ⟨hk, hks⟩ := List.forall_mem_cons.1 hks
    have hmore := ih hks
    rw [written, List.map_cons, List.cons_append,
      moreDigits.eq_3 _ _ (fun _ _ h => absurd h (digitChar_ne_underscore k hk)), decimalValue?_digitChar k hk]
    simp only
    rw [← written, hmore]

/-- Digits are split off where they end. -/
theorem splitDigits_append {ks : List ℕ} (hne : ks ≠ []) (hks : AreDigits ks) {rest : List Char}
    (hrest : EndsDigits rest) : splitDigits (written ks ++ rest) = (ks, rest) := by
  obtain ⟨k, ks, rfl⟩ := List.exists_cons_of_ne_nil hne
  obtain ⟨hk, hks⟩ := List.forall_mem_cons.1 hks
  have hmore := moreDigits_append hks hrest
  rw [written, List.map_cons, List.cons_append, splitDigits, decimalValue?_digitChar k hk]
  simp only
  rw [← written, hmore]

theorem endsDigits_nil : EndsDigits [] := rfl

theorem endsDigits_point (rest : List Char) : EndsDigits ('.' :: rest) :=
  moreDigits.eq_3 _ _ fun _ _ h => absurd h (by decide)

theorem endsDigits_exponent (rest : List Char) : EndsDigits ('e' :: rest) :=
  moreDigits.eq_3 _ _ fun _ _ h => absurd h (by decide)

/-! ## The parts of a numeral -/

theorem readDecimal?_point {whole frac : List ℕ} (hne : whole ≠ []) (hwhole : AreDigits whole) (hne' : frac ≠ [])
    (hfrac : AreDigits frac) {tail : List Char} {e : ℤ} (hends : EndsDigits tail)
    (htail : splitExponent tail = some (e, [])) (negative : Bool) :
    readDecimal? negative (written whole ++ '.' :: (written frac ++ tail)) =
      some (.ofDecimal negative (valueOf (whole ++ frac)) (e - frac.length)) := by
  have hempty : (whole.isEmpty && frac.isEmpty) = false := by simp [hne]
  unfold readDecimal?
  simp only [splitDigits_append hne hwhole (endsDigits_point _), splitDigits_append hne' hfrac hends, htail, hempty,
    Bool.false_eq_true, if_false]

theorem readDecimal?_whole {whole : List ℕ} (hne : whole ≠ []) (hwhole : AreDigits whole) {tail : List Char} {e : ℤ}
    (hends : EndsDigits tail) (hpoint : tail.head? ≠ some '.') (htail : splitExponent tail = some (e, []))
    (negative : Bool) :
    readDecimal? negative (written whole ++ tail) = some (.ofDecimal negative (valueOf whole) e) := by
  have hempty : (whole.isEmpty && ([] : List ℕ).isEmpty) = false := by simp [hne]
  unfold readDecimal?
  rw [splitDigits_append hne hwhole hends]
  simp only
  split
  · next rest _ => exact absurd rfl hpoint
  · rw [hempty, htail]
    simp

/-- An exponent as it is written, with some zeros in front of its digits. -/
def exponentText (e : ℤ) (zeros : ℕ) : List Char :=
  'e' :: (if e < 0 then '-' else '+') :: (List.replicate zeros '0' ++ Nat.toDigits 10 e.natAbs)

theorem splitExponent_exponentText (e : ℤ) (zeros : ℕ) : splitExponent (exponentText e zeros) = some (e, []) := by
  obtain ⟨ks, hks, hdigits, hne, hvalue⟩ := exists_toDigits e.natAbs
  have hsplit : splitDigits (List.replicate zeros '0' ++ Nat.toDigits 10 e.natAbs) =
      (List.replicate zeros 0 ++ ks, []) := by
    rw [hks, ← written_replicate, ← written_append, ← List.append_nil (written _)]
    exact splitDigits_append (by simp [hne]) ((areDigits_replicate zeros).append hdigits) endsDigits_nil
  have hvalue' : valueOf (List.replicate zeros 0 ++ ks) = e.natAbs := by rw [valueOf_padded, hvalue]
  obtain ⟨d, ds, hds⟩ : ∃ d ds, List.replicate zeros 0 ++ ks = d :: ds := List.exists_cons_of_ne_nil (by simp [hne])
  rw [hds] at hsplit hvalue'
  unfold exponentText
  by_cases hneg : e < 0
  · have hint : -(e.natAbs : ℤ) = e := by omega
    rw [if_pos hneg, splitExponent, if_pos (by decide)]
    simp only [splitSign, hsplit, hvalue', if_true, hint]
  · have hint : (e.natAbs : ℤ) = e := by omega
    rw [if_neg hneg, splitExponent, if_pos (by decide)]
    simp only [splitSign, hsplit, hvalue', Bool.false_eq_true, if_false, hint]

/-! ## Both notations -/

/-- Characters that are read as a number: none of them is padding, the first one is a digit, and the reader makes of
them a decimal that stands for the number. -/
structure Reads (cs : List Char) (v : ℚ) : Prop where
  plain : ∀ c ∈ cs, isPadding c = false
  first : ∃ k < 10, cs.head? = some (Nat.digitChar k)
  decimal : ∀ negative, ∃ (digits : ℕ) (e : ℤ), readDecimal? negative cs = some (.ofDecimal negative digits e) ∧
    (digits : ℚ) * 10 ^ e = v

theorem isPadding_of_mem_written {ks : List ℕ} (hks : AreDigits ks) : ∀ c ∈ written ks, isPadding c = false := by
  intro c hc
  have hdigits : ∀ k < 10, isPadding (Nat.digitChar k) = false := by decide
  obtain ⟨k, hk, rfl⟩ := List.mem_map.1 hc
  exact hdigits k (hks k hk)

theorem head?_written {ks : List ℕ} (hne : ks ≠ []) (hks : AreDigits ks) (rest : List Char) :
    ∃ k < 10, (written ks ++ rest).head? = some (Nat.digitChar k) := by
  obtain ⟨k, ks, rfl⟩ := List.exists_cons_of_ne_nil hne
  exact ⟨k, hks k List.mem_cons_self, rfl⟩

theorem reads_point {whole frac : List ℕ} (hne : whole ≠ []) (hwhole : AreDigits whole) (hne' : frac ≠ [])
    (hfrac : AreDigits frac) {v : ℚ} (hv : (valueOf (whole ++ frac) : ℚ) * 10 ^ (-frac.length : ℤ) = v) :
    Reads (written whole ++ '.' :: written frac) v := by
  refine ⟨List.forall_mem_append.2 ⟨isPadding_of_mem_written hwhole, ?_⟩, head?_written hne hwhole _,
    fun negative => ⟨_, _, ?_, hv⟩⟩
  · exact List.forall_mem_cons.2 ⟨by decide, isPadding_of_mem_written hfrac⟩
  · have hread := readDecimal?_point hne hwhole hne' hfrac endsDigits_nil rfl negative
    rwa [List.append_nil, zero_sub] at hread

/-- Positional notation is read as the number that it was made from. -/
theorem reads_positional (d : Decimal) : Reads (d.positional ".0").toList d.value := by
  obtain ⟨ks, hks, hdigits, hne, hvalue⟩ := exists_toDigits d.digits
  unfold Decimal.positional Decimal.digitText
  simp only [hks]
  split
  · next hexp =>
    have htext : (String.ofList (written ks ++ List.replicate d.exp.toNat '0') ++ ".0").toList =
        written (ks ++ List.replicate d.exp.toNat 0) ++ '.' :: written [0] := by
      rw [String.toList_append, String.toList_ofList, written_append, written_replicate]
      rfl
    rw [htext]
    refine reads_point (by simp [hne]) (hdigits.append (areDigits_replicate _)) (by simp) (by simp [AreDigits]) ?_
    obtain ⟨n, hn⟩ := Int.eq_ofNat_of_zero_le hexp
    rw [valueOf_append, valueOf_append, valueOf_replicate, hvalue, Decimal.value, hn]
    simp [valueOf, zpow_neg]
  · next hexp =>
    rw [String.toList_ofList]
    generalize hplaces : (-d.exp).toNat = places
    have hpadded : List.replicate (places + 1 - (written ks).length) '0' ++ written ks =
        written (List.replicate (places + 1 - ks.length) 0 ++ ks) := by
      rw [written_append, written_replicate, written, List.length_map]
    have hlength : places < (List.replicate (places + 1 - ks.length) 0 ++ ks).length := by
      rw [List.length_append, List.length_replicate]
      omega
    have hall := (areDigits_replicate (places + 1 - ks.length)).append hdigits
    have htotal : valueOf (List.replicate (places + 1 - ks.length) 0 ++ ks) = d.digits := by rw [valueOf_padded, hvalue]
    rw [hpadded]
    generalize List.replicate (places + 1 - ks.length) 0 ++ ks = padded at hlength hall htotal
    have hcut : padded.length - places < padded.length := by omega
    rw [written, List.length_map, ← List.map_take, ← List.map_drop, ← written, ← written]
    refine reads_point ?_ (fun k hk => hall k (List.mem_of_mem_take hk)) ?_
      (fun k hk => hall k (List.mem_of_mem_drop hk)) ?_
    · exact List.ne_nil_of_length_pos (by rw [List.length_take]; omega)
    · exact List.ne_nil_of_length_pos (by rw [List.length_drop]; omega)
    · rw [List.take_append_drop, htotal, List.length_drop, Decimal.value]
      congr 2
      omega

theorem isPadding_of_mem_exponentText (e : ℤ) (zeros : ℕ) : ∀ c ∈ exponentText e zeros, isPadding c = false := by
  obtain ⟨ks, hks, hdigits, -, -⟩ := exists_toDigits e.natAbs
  rw [exponentText, hks, ← written_replicate, ← written_append]
  refine List.forall_mem_cons.2 ⟨by decide, List.forall_mem_cons.2 ⟨?_, ?_⟩⟩
  · split <;> decide
  · exact isPadding_of_mem_written ((areDigits_replicate zeros).append hdigits)

/-- Notation with an exponent is read as the number that it was made from. -/
theorem reads_scientific (d : Decimal) : Reads d.scientific.toList d.value := by
  obtain ⟨ks, hks, hdigits, hne, hvalue⟩ := exists_toDigits d.digits
  obtain ⟨k, rest, rfl⟩ := List.exists_cons_of_ne_nil hne
  have hleading : d.leading = rest.length + d.exp := by
    rw [Decimal.leading, Decimal.digitText, hks, written, List.length_map, List.length_cons]
    omega
  obtain ⟨hk, hrest⟩ := List.forall_mem_cons.1 hdigits
  have hfirst : AreDigits [k] := by simpa [AreDigits] using hk
  generalize hzeros : 2 - (Nat.toDigits 10 d.leading.natAbs).length = zeros
  have hends : EndsDigits (exponentText d.leading zeros) := endsDigits_exponent _
  have hexponent := splitExponent_exponentText d.leading zeros
  cases rest with
  | nil =>
    have htext : d.scientific.toList = written [k] ++ exponentText d.leading zeros := by
      rw [Decimal.scientific, Decimal.digitText, hks, hzeros, String.toList_ofList]
      simp [written, exponentText]
    rw [htext]
    refine ⟨?_, head?_written (by simp) hfirst _, fun negative => ⟨_, _,
      readDecimal?_whole (by simp) hfirst hends (by simp [exponentText]) hexponent negative, ?_⟩⟩
    · exact List.forall_mem_append.2 ⟨isPadding_of_mem_written hfirst, isPadding_of_mem_exponentText _ _⟩
    · rw [hvalue, hleading, Decimal.value]
      simp
  | cons next more =>
    have htext : d.scientific.toList =
        written [k] ++ '.' :: (written (next :: more) ++ exponentText d.leading zeros) := by
      rw [Decimal.scientific, Decimal.digitText, hks, hzeros, String.toList_ofList]
      simp [written, exponentText]
    rw [htext]
    refine ⟨?_, head?_written (by simp) hfirst _, fun negative => ⟨_, _,
      readDecimal?_point (by simp) hfirst (by simp) hrest hends hexponent negative, ?_⟩⟩
    · refine List.forall_mem_append.2 ⟨isPadding_of_mem_written hfirst, List.forall_mem_cons.2 ⟨by decide, ?_⟩⟩
      exact List.forall_mem_append.2 ⟨isPadding_of_mem_written hrest, isPadding_of_mem_exponentText _ _⟩
    · rw [List.singleton_append, hvalue, hleading, Decimal.value]
      congr 2
      omega

/-! ## Whole texts -/

theorem unpadded_ofList {cs : List Char} (h : ∀ c ∈ cs, isPadding c = false) : unpadded (String.ofList cs) = cs := by
  have hdrop : ∀ {ds : List Char}, (∀ c ∈ ds, isPadding c = false) → ds.dropWhile isPadding = ds := by
    intro ds hds
    cases ds with
    | nil => rfl
    | cons d ds => rw [List.dropWhile_cons, hds d List.mem_cons_self, if_neg Bool.false_ne_true]
  rw [unpadded, String.toList_ofList, hdrop h, hdrop (fun c hc => h c (List.mem_reverse.1 hc)), List.reverse_reverse]

theorem Reads.splitSign_signed {cs : List Char} {v : ℚ} (h : Reads cs v) (negative : Bool) :
    splitSign (unpadded (signed negative (String.ofList cs))) = (negative, cs) := by
  cases negative with
  | true =>
    have htext : signed true (String.ofList cs) = String.ofList ('-' :: cs) := by
      rw [signed, if_pos rfl, String.ofList_cons]
      rfl
    rw [htext, unpadded_ofList (List.forall_mem_cons.2 ⟨by decide, h.plain⟩)]
    rfl
  | false =>
    have hplain : ∀ k < 10, Nat.digitChar k ≠ '-' ∧ Nat.digitChar k ≠ '+' := by decide
    obtain ⟨k, hk, hfirst⟩ := h.first
    have hhead : ∀ c rest, cs = c :: rest → c = Nat.digitChar k := by
      intro c rest hcs
      rw [hcs] at hfirst
      exact Option.some.inj hfirst
    rw [signed, if_neg Bool.false_ne_true, unpadded_ofList h.plain]
    exact splitSign.eq_3 _ (fun rest hcs => (hplain k hk).1 (hhead '-' rest hcs).symm)
      fun rest hcs => (hplain k hk).2 (hhead '+' rest hcs).symm

theorem Reads.ne_word {cs : List Char} {v : ℚ} (h : Reads cs v) {word : String}
    (hword : word.toList.head? = some 'i' ∨ word.toList.head? = some 'n') :
    String.ofList (cs.map Char.toLower) ≠ word := by
  rintro rfl
  have hlower : ∀ k < 10, (Nat.digitChar k).toLower ≠ 'i' ∧ (Nat.digitChar k).toLower ≠ 'n' := by decide
  obtain ⟨k, hk, hfirst⟩ := h.first
  rw [String.toList_ofList, List.head?_map, hfirst] at hword
  simp only [Option.map_some, Option.some.injEq] at hword
  exact hword.elim (hlower k hk).1 (hlower k hk).2

theorem Reads.readReal_signed {cs : List Char} {v : ℚ} (h : Reads cs v) {m : ℕ} {q : ℤ} {negative : Bool}
    (hform : (Binary64.finite negative m q).IsCanonical) (hm : 0 < m) (hv : RoundsTo v m q) :
    readReal (signed negative (String.ofList cs)) = .ok (.finite negative m q) := by
  obtain ⟨digits, e, hread, hvalue⟩ := h.decimal negative
  have hinf : String.ofList (cs.map Char.toLower) ≠ "inf" := h.ne_word (.inl rfl)
  have hinfinity : String.ofList (cs.map Char.toLower) ≠ "infinity" := h.ne_word (.inl rfl)
  have hnan : String.ofList (cs.map Char.toLower) ≠ "nan" := h.ne_word (.inr rfl)
  have hdecimal : Binary64.ofDecimal negative digits e = .finite negative m q :=
    ofDecimal_of_roundsTo hform hm (hvalue.symm ▸ hv)
  unfold readReal
  simp only [h.splitSign_signed, hinf, hinfinity, hnan, hread, hdecimal, decide_false, Bool.or_self, Bool.false_eq_true,
    if_false]

/-- The text of a value in its one form is read as the value. -/
theorem readReal_text {x : Binary64} (hform : x.IsCanonical) : readReal x.text = .ok x := by
  cases x with
  | nan => rfl
  | infinite negative => cases negative <;> rfl
  | finite negative m q =>
    rcases Nat.eq_zero_or_pos m with rfl | hm
    · obtain rfl : q = minExponent := hform.2.2.2.resolve_left (by norm_num)
      cases negative <;> rfl
    · have hv := roundsTo_shortest hm q
      have htext : (Binary64.finite negative m q).text = signed negative
          (if -4 ≤ (shortest m q).leading && (shortest m q).leading < 16 then (shortest m q).positional ".0"
            else (shortest m q).scientific) := by
        obtain ⟨n, rfl⟩ := Nat.exists_eq_succ_of_ne_zero hm.ne'
        rfl
      rw [htext]
      split
      · rw [← String.ofList_toList (s := (shortest m q).positional ".0")]
        exact (reads_positional _).readReal_signed hform hm hv
      · rw [← String.ofList_toList (s := (shortest m q).scientific)]
        exact (reads_scientific _).readReal_signed hform hm hv

theorem isCanonical_of_readDecimal? {negative : Bool} {cs : List Char} {x : Binary64}
    (h : readDecimal? negative cs = some x) : x.IsCanonical := by
  unfold readDecimal? at h
  simp only [Option.ite_none_left_eq_some] at h
  obtain ⟨-, h⟩ := h
  generalize splitExponent _ = tail at h
  split at h
  · cases h
    exact isCanonical_ofDecimal _ _ _
  · cases h

/-- What is read from any text is in the one form. -/
theorem isCanonical_of_readReal {s : String} {x : Binary64} (h : readReal s = .ok x) : x.IsCanonical := by
  unfold readReal at h
  simp only at h
  split at h
  · cases h
    trivial
  · split at h
    · cases h
      trivial
    · split at h
      · next hread =>
        cases h
        exact isCanonical_of_readDecimal? hread
      · cases h

end SourceAudit.Numeral
