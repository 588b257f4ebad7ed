import Mathlib.Tactic.Ring
import SourceAudit.Number.Decimal
import SourceAudit.Proofs.Number.Rounding

/-!
# Decimals that read back

The decimal that is chosen for a value lies among the numbers that are rounded to the value, and so does every other way
to write the same number: with more zeros at the end and a smaller exponent, or the other way round. Reading it gives
the value again.

Results:
* `compareScaled_spec`: a decimal is compared with a value exactly.
* `roundsTo_of_readsBack`: a decimal that is said to read back lies in the reach of the value.
* `roundsTo_shortest`: so does the decimal that is chosen, whether the search for few digits finds one or not.
* `ofDecimal_of_roundsTo`: a decimal in the reach of a value is read as the value.
-/
namespace SourceAudit.Binary64

def Decimal.value (d : Decimal) : ℚ := d.digits * 10 ^ d.exp

/-! ## Comparisons -/

theorem zpow_mul_pow_toNat {b : ℚ} (hb : b ≠ 0) (i : ℤ) : b ^ i * b ^ (-i).toNat = b ^ i.toNat := by
  rw [← zpow_natCast, ← zpow_natCast, ← zpow_add₀ hb]
  congr 1
  omega

/-- A decimal is compared with a value exactly. -/
theorem compareScaled_spec (a : ℕ) (i : ℤ) (n : ℕ) (j : ℤ) :
    (compareScaled a i n j = .lt ↔ (a : ℚ) * 10 ^ i < n * 2 ^ j) ∧
      (compareScaled a i n j = .eq ↔ (a : ℚ) * 10 ^ i = n * 2 ^ j) ∧
      (compareScaled a i n j = .gt ↔ (n : ℚ) * 2 ^ j < a * 10 ^ i) := by
  have hpos : (0 : ℚ) < 10 ^ (-i).toNat * 2 ^ (-j).toNat := by positivity
  have hleft : (a : ℚ) * 10 ^ i * (10 ^ (-i).toNat * 2 ^ (-j).toNat) =
      ((a * 10 ^ i.toNat * 2 ^ (-j).toNat : ℕ) : ℚ) := by
    push_cast
    rw [← zpow_mul_pow_toNat (by norm_num : (10 : ℚ) ≠ 0) i]
    ring
  have hright : (n : ℚ) * 2 ^ j * (10 ^ (-i).toNat * 2 ^ (-j).toNat) =
      ((n * 2 ^ j.toNat * 10 ^ (-i).toNat : ℕ) : ℚ) := by
    push_cast
    rw [← zpow_mul_pow_toNat (two_ne_zero : (2 : ℚ) ≠ 0) j]
    ring
  have hlt : (a : ℚ) * 10 ^ i < n * 2 ^ j ↔ a * 10 ^ i.toNat * 2 ^ (-j).toNat < n * 2 ^ j.toNat * 10 ^ (-i).toNat := by
    rw [← mul_lt_mul_iff_of_pos_right hpos, hleft, hright, Nat.cast_lt]
  have hgt : (n : ℚ) * 2 ^ j < a * 10 ^ i ↔ n * 2 ^ j.toNat * 10 ^ (-i).toNat < a * 10 ^ i.toNat * 2 ^ (-j).toNat := by
    rw [← mul_lt_mul_iff_of_pos_right hpos, hleft, hright, Nat.cast_lt]
  have heq : (a : ℚ) * 10 ^ i = n * 2 ^ j ↔ a * 10 ^ i.toNat * 2 ^ (-j).toNat = n * 2 ^ j.toNat * 10 ^ (-i).toNat := by
    rw [← mul_left_inj' hpos.ne', hleft, hright, Nat.cast_inj]
  rw [hlt, heq, hgt]
  simp only [compareScaled, Nat.shiftLeft_eq, Nat.pow_eq]
  exact ⟨Nat.compare_eq_lt, Nat.compare_eq_eq, Nat.compare_eq_gt⟩

/-- A decimal that is said to read back lies in the reach of the value. -/
theorem roundsTo_of_readsBack {m : ℕ} (hm : 0 < m) {q : ℤ} {d : Decimal} (h : readsBack m q d = true) :
    RoundsTo d.value m q := by
  have hunit : (2 : ℚ) ^ (q - 2) = 2 ^ q / 4 := by
    rw [zpow_sub₀ two_ne_zero]
    norm_num
  have hpos := two_zpow_pos q
  -- The ends of the reach are counted in quarters of a unit.
  have hends : ∀ k : ℕ, (compareScaled d.digits d.exp k (q - 2) = .lt → d.value / 2 ^ q < k / 4) ∧
      (compareScaled d.digits d.exp k (q - 2) = .eq → d.value / 2 ^ q = k / 4) ∧
      (compareScaled d.digits d.exp k (q - 2) = .gt → k / 4 < d.value / 2 ^ q) := by
    intro k
    obtain ⟨hlt, heq, hgt⟩ := compareScaled_spec d.digits d.exp k (q - 2)
    have hk : (k : ℚ) * 2 ^ (q - 2) = k / 4 * 2 ^ q := by rw [hunit]; ring
    rw [hk] at hlt heq hgt
    exact ⟨fun h => (div_lt_iff₀ hpos).2 (hlt.1 h), fun h => (div_eq_iff hpos.ne').2 (heq.1 h),
      fun h => (lt_div_iff₀ hpos).2 (hgt.1 h)⟩
  unfold readsBack at h
  simp only [Bool.and_eq_true, Bool.or_eq_true, beq_iff_eq, show (1 <<< 52 : ℕ) = 2 ^ 52 by decide] at h
  obtain ⟨hlow, hhigh⟩ := h
  generalize hlo : (if m = 2 ^ 52 ∧ q > minExponent then 4 * m - 1 else 4 * m - 2) = lo at hlow
  obtain ⟨-, hloEq, hloGt⟩ := hends lo
  obtain ⟨hhiLt, hhiEq, -⟩ := hends (4 * m + 2)
  have hlow' : (lo / 4 : ℚ) < d.value / 2 ^ q ∨ m % 2 = 0 ∧ d.value / 2 ^ q = lo / 4 :=
    hlow.imp hloGt fun h => ⟨h.1, hloEq h.2⟩
  have hhigh' : d.value / 2 ^ q < (m : ℚ) + 1 / 2 ∨ m % 2 = 0 ∧ d.value / 2 ^ q = m + 1 / 2 := by
    have hquarters : (((4 * m + 2 : ℕ) : ℚ)) / 4 = m + 1 / 2 := by push_cast; ring
    rw [← hquarters]
    exact hhigh.imp hhiLt fun h => ⟨h.1, hhiEq h.2⟩
  have hquarters : (lo / 4 : ℚ) = if m = 2 ^ 52 ∧ q > minExponent then (m : ℚ) - 1 / 4 else m - 1 / 2 := by
    rw [← hlo]
    split
    · rw [Nat.cast_sub (by omega)]
      push_cast
      ring
    · rw [Nat.cast_sub (by omega)]
      push_cast
      ring
  rw [hquarters] at hlow'
  split at hlow'
  · have hnear : (m : ℚ) - 1 / 4 ≤ d.value / 2 ^ q := hlow'.elim le_of_lt fun h => h.2.ge
    exact ⟨.of_ends (.inl (by linarith)) hhigh', fun _ _ => hnear⟩
  · next hedge => exact ⟨.of_ends hlow' hhigh', fun hpower hq => absurd ⟨hpower, hq⟩ hedge⟩

/-! ## The choice of a decimal -/

theorem readsBack_of_selectOnGrid {m n : ℕ} {q k : ℤ} {d : Decimal} (h : selectOnGrid m q k n = some d) :
    readsBack m q d = true := by
  unfold selectOnGrid at h
  simp only at h
  split at h
  · next hlow hhigh =>
    cases h
    -- The nearest point of the grid is one of the two neighbours.
    have hcases : nearestOnGrid m q (k - n) = floorOnGrid m q (k - n) ∨
        nearestOnGrid m q (k - n) = floorOnGrid m q (k - n) + 1 := roundDiv_cases _ _
    rcases hcases with hnearest | hnearest
    · rwa [hnearest]
    · rwa [hnearest]
  · next hlow _ => cases h; exact hlow
  · next _ hhigh => cases h; exact hhigh
  · cases h

theorem Decimal.value_stripZeros (fuel : ℕ) (d : Decimal) : (d.stripZeros fuel).value = d.value := by
  induction fuel generalizing d with
  | zero => rfl
  | succ fuel ih =>
    rw [Decimal.stripZeros]
    split
    · next h =>
      have hdigits : (d.digits : ℚ) = (d.digits / 10 : ℕ) * 10 := by exact_mod_cast (Nat.div_mul_cancel (by omega)).symm
      rw [ih, Decimal.value, Decimal.value, hdigits, zpow_add_one₀ (by norm_num)]
      ring
    · rfl

theorem value_exact (m : ℕ) (q : ℤ) :
    (Decimal.mk ((m <<< q.toNat) * Nat.pow 5 (-q).toNat) (min q 0)).value = m * 2 ^ q := by
  have hten : (10 : ℚ) ^ min q 0 = 2 ^ min q 0 * 5 ^ min q 0 := by
    rw [← mul_zpow]
    norm_num
  have htwo : (2 : ℚ) ^ q.toNat * 2 ^ min q 0 = 2 ^ q := by
    rw [← zpow_natCast, ← zpow_add₀ two_ne_zero]
    congr 1
    omega
  have hfive : (5 : ℚ) ^ (-q).toNat * 5 ^ min q 0 = 1 := by
    rw [← zpow_natCast, ← zpow_add₀ (by norm_num), show ((-q).toNat : ℤ) + min q 0 = 0 by omega, zpow_zero]
  rw [Decimal.value, hten, Nat.shiftLeft_eq, Nat.pow_eq]
  push_cast
  calc (m : ℚ) * 2 ^ q.toNat * 5 ^ (-q).toNat * (2 ^ min q 0 * 5 ^ min q 0)
      = m * (2 ^ q.toNat * 2 ^ min q 0) * (5 ^ (-q).toNat * 5 ^ min q 0) := by ring
    _ = m * 2 ^ q := by rw [htwo, hfive, mul_one]

theorem roundsTo_self (m : ℕ) (q : ℤ) : RoundsTo (m * 2 ^ q) m q := by
  have hcount : (m : ℚ) * 2 ^ q / 2 ^ q = m := mul_div_cancel_right₀ _ (two_zpow_pos q).ne'
  refine ⟨?_, fun _ _ => ?_⟩
  · rw [hcount]
    exact .of_ends (.inl (by linarith)) (.inl (by linarith))
  · rw [hcount]
    linarith

/-- The decimal that is chosen lies in the reach of the value. -/
theorem roundsTo_shortest {m : ℕ} (hm : 0 < m) (q : ℤ) : RoundsTo (shortest m q).value m q := by
  unfold shortest
  simp only [Decimal.value_stripZeros]
  cases hfound : (List.range 17).findSome? fun i => selectOnGrid m q (magnitude m q) (i + 1) with
  | none =>
    rw [Option.getD_none, value_exact]
    exact roundsTo_self m q
  | some d =>
    obtain ⟨i, -, hi⟩ := List.exists_of_findSome?_eq_some hfound
    exact roundsTo_of_readsBack hm (readsBack_of_selectOnGrid hi)

/-! ## Reading a decimal -/

theorem size_bounds {digits : ℕ} (hdigits : 0 < digits) (e : ℤ) :
    (10 : ℚ) ^ ((Nat.toDigits 10 digits).length + e - 1) ≤ digits * 10 ^ e ∧
      (digits : ℚ) * 10 ^ e < 10 ^ ((Nat.toDigits 10 digits).length + e) := by
  have hlength : 0 < (Nat.toDigits 10 digits).length := Nat.length_toDigits_pos
  generalize hn : (Nat.toDigits 10 digits).length = n at hlength
  have hhigh : digits < 10 ^ n := (Nat.length_toDigits_le_iff (by decide) hlength).1 hn.le
  have hlow : 10 ^ (n - 1) ≤ digits := by
    by_contra hlt
    obtain hone | hmore : n = 1 ∨ 0 < n - 1 := by omega
    · rw [hone] at hlt
      omega
    · have := (Nat.length_toDigits_le_iff (by decide) hmore).2 (not_le.1 hlt)
      omega
  have hten : (10 : ℚ) ≠ 0 := by norm_num
  have hpos : (0 : ℚ) < 10 ^ e := zpow_pos (by norm_num) e
  refine ⟨?_, ?_⟩
  · rw [show (n : ℤ) + e - 1 = ((n - 1 : ℕ) : ℤ) + e by omega, zpow_add₀ hten, zpow_natCast]
    exact mul_le_mul_of_nonneg_right (by exact_mod_cast hlow) hpos.le
  · rw [zpow_add₀ hten, zpow_natCast]
    exact mul_lt_mul_of_pos_right (by exact_mod_cast hhigh) hpos

/-- What is rounded to a value is neither too small nor too large. -/
theorem RoundsTo.bounds {v : ℚ} {m : ℕ} {q : ℤ} {negative : Bool} (hform : (Binary64.finite negative m q).IsCanonical)
    (hm : 0 < m) (h : RoundsTo v m q) : (10 : ℚ) ^ (-331 : ℤ) ≤ v ∧ v < 10 ^ (310 : ℤ) := by
  obtain ⟨hcount, hleast, hmost, -⟩ := hform
  have hpos := two_zpow_pos q
  have hone : (1 : ℚ) ≤ m := by exact_mod_cast hm
  have hmax : (m : ℚ) + 1 ≤ 2 ^ 53 := by exact_mod_cast hcount
  refine ⟨?_, ?_⟩
  · have hunit : (2 : ℚ) ^ (-1074 : ℤ) ≤ 2 ^ q := zpow_le_zpow_right₀ one_le_two hleast
    have hhalf : 1 / 2 * 2 ^ q ≤ v := (le_div_iff₀ hpos).1 (by linarith [h.nearest.low])
    have hsmall : (10 : ℚ) ^ (-331 : ℤ) ≤ 2 ^ (-1075 : ℤ) := by
      rw [zpow_neg, zpow_neg]
      refine inv_anti₀ (by positivity) ?_
      have hpow : (2 : ℚ) ^ 1075 ≤ 10 ^ 331 := by
        calc (2 : ℚ) ^ 1075 = (2 ^ 43) ^ 25 := by rw [← pow_mul]
          _ ≤ (10 ^ 13) ^ 25 := pow_le_pow_left₀ (by norm_num) (by norm_num) 25
          _ = 10 ^ 325 := by rw [← pow_mul]
          _ ≤ 10 ^ 331 := pow_le_pow_right₀ (by norm_num) (by norm_num)
      exact_mod_cast hpow
    have hstep : (2 : ℚ) ^ (-1075 : ℤ) = 1 / 2 * 2 ^ (-1074 : ℤ) := by
      rw [show (-1075 : ℤ) = -1 + -1074 by norm_num, zpow_add₀ two_ne_zero]
      norm_num
    linarith
  · have hunit : (2 : ℚ) ^ q ≤ 2 ^ (971 : ℤ) := zpow_le_zpow_right₀ one_le_two hmost
    have hhalf : v < 2 ^ 53 * 2 ^ q := (div_lt_iff₀ hpos).1 (by linarith [h.nearest.high])
    have hpow : (2 : ℚ) ^ 53 * 2 ^ (971 : ℤ) ≤ 10 ^ (310 : ℤ) := by
      calc (2 : ℚ) ^ 53 * 2 ^ (971 : ℤ) = (2 ^ 128) ^ 8 := by
            rw [← zpow_natCast, ← zpow_add₀ two_ne_zero, ← pow_mul, ← zpow_natCast]
            norm_num
        _ ≤ (10 ^ 62) ^ 5 := by norm_num
        _ = 10 ^ (310 : ℤ) := by rw [← pow_mul, ← zpow_natCast]; norm_num
    have hscaled : (2 : ℚ) ^ 53 * 2 ^ q ≤ 2 ^ 53 * 2 ^ (971 : ℤ) := mul_le_mul_of_nonneg_left hunit (by positivity)
    exact hhalf.trans_le (hscaled.trans hpow)

/-- A decimal in the reach of a value is read as the value. -/
theorem ofDecimal_of_roundsTo {digits m : ℕ} {e q : ℤ} {negative : Bool}
    (hform : (Binary64.finite negative m q).IsCanonical) (hm : 0 < m) (h : RoundsTo (digits * 10 ^ e) m q) :
    ofDecimal negative digits e = .finite negative m q := by
  obtain ⟨hsmall, hlarge⟩ := h.bounds hform hm
  have hdigits : 0 < digits := by
    rcases Nat.eq_zero_or_pos digits with rfl | hpos
    · have htiny : (0 : ℚ) < 10 ^ (-331 : ℤ) := by positivity
      rw [Nat.cast_zero, zero_mul] at hsmall
      exact absurd hsmall (not_le.2 htiny)
    · exact hpos
  obtain ⟨hlow, hhigh⟩ := size_bounds hdigits e
  have hten : (1 : ℚ) < 10 := by norm_num
  have hleast : -331 < ((Nat.toDigits 10 digits).length + e : ℤ) :=
    (zpow_lt_zpow_iff_right₀ hten).1 (hsmall.trans_lt hhigh)
  have hmost : ((Nat.toDigits 10 digits).length + e - 1 : ℤ) < 310 :=
    (zpow_lt_zpow_iff_right₀ hten).1 (hlow.trans_lt hlarge)
  have hratio : ((digits * Nat.pow 10 e.toNat : ℕ) : ℚ) / (Nat.pow 10 (-e).toNat : ℕ) = digits * 10 ^ e := by
    simp only [Nat.pow_eq]
    push_cast
    rw [← zpow_mul_pow_toNat (by norm_num : (10 : ℚ) ≠ 0) e]
    field_simp
  have hwithin : ¬(decide (digits = 0) || decide (((Nat.toDigits 10 digits).length + e : ℤ) < -330)) = true := by
    rw [Bool.or_eq_true, decide_eq_true_iff, decide_eq_true_iff]
    omega
  have hnum : digits * Nat.pow 10 e.toNat ≠ 0 := Nat.mul_ne_zero hdigits.ne' (Nat.pow_pos (by decide)).ne'
  have hden : Nat.pow 10 (-e).toNat ≠ 0 := (Nat.pow_pos (by decide)).ne'
  unfold ofDecimal
  simp only
  rw [if_neg hwithin, if_neg (by omega)]
  exact ofRatio_of_roundsTo hform hnum hden (by rw [hratio]; exact h)

theorem isCanonical_ofDecimal (negative : Bool) (digits : ℕ) (e : ℤ) : (ofDecimal negative digits e).IsCanonical := by
  unfold ofDecimal
  simp only
  split
  · exact ⟨by norm_num, le_rfl, by decide, .inr rfl⟩
  · split
    · trivial
    · exact isCanonical_ofRatio _ _ (Nat.pow_pos (by decide)).ne'

end SourceAudit.Binary64
