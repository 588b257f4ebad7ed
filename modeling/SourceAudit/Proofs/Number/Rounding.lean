import Mathlib.Algebra.Order.Field.Power
import Mathlib.Data.Rat.Cast.Order
import Mathlib.Tactic.FieldSimp
import Mathlib.Tactic.Linarith
import Mathlib.Tactic.NormNum
import Mathlib.Tactic.Positivity
import SourceAudit.Number.Binary64

/-!
# Rounding to 64 bits

A positive ratio has a unit, the power of two of which its value takes fewer than `2 ^ 53`, and at least `2 ^ 52` unless
the unit is the least one. Rounding counts the units, to nearest, and a count that reaches `2 ^ 53` moves to the next
unit. A number is therefore rounded to `m * 2 ^ q` if it is nearest to `m` units `2 ^ q`, except just below a power of
two, where the numbers of the next smaller unit lie only half as far away.

Results:
* `isNearest_roundDiv`, `IsNearest.unique`: rounding a quotient gives the nearest integer, an even one if there are two.
* `hasUnit_max_log2Ratio`, `HasUnit.unique`: the unit that is found is the unit of the ratio.
* `ofRatio_eq`: a ratio is rounded to the nearest count of its units.
* `isCanonical_ofRatio`: what rounding gives is in the one form in which values are kept.
* `ofRatio_of_roundsTo`: a ratio that lies in the reach of a value is rounded to the value.
-/
namespace SourceAudit.Binary64

/-! ## Nearest integers -/

/-- An integer nearest to a number, which is even if the number is halfway between two. -/
structure IsNearest (t : ℚ) (m : ℕ) : Prop where
  low : (m : ℚ) - 1 / 2 ≤ t
  high : t ≤ m + 1 / 2
  tie : t = m - 1 / 2 ∨ t = m + 1 / 2 → m % 2 = 0

theorem IsNearest.of_ends {t : ℚ} {m : ℕ} (hlow : (m : ℚ) - 1 / 2 < t ∨ m % 2 = 0 ∧ t = m - 1 / 2)
    (hhigh : t < (m : ℚ) + 1 / 2 ∨ m % 2 = 0 ∧ t = m + 1 / 2) : IsNearest t m := by
  rcases hlow with hlow | ⟨heven, hlow⟩
  · rcases hhigh with hhigh | ⟨heven, hhigh⟩
    · exact ⟨hlow.le, hhigh.le, fun htie => by rcases htie with h | h <;> linarith⟩
    · exact ⟨hlow.le, hhigh.le, fun _ => heven⟩
  · exact ⟨hlow.ge, by linarith, fun _ => heven⟩

theorem roundDiv_cases (num den : ℕ) : roundDiv num den = num / den ∨ roundDiv num den = num / den + 1 := by
  unfold roundDiv
  simp only
  split
  · exact .inl rfl
  · split
    · exact .inr rfl
    · split
      · exact .inl rfl
      · exact .inr rfl

/-- A quotient is rounded to the nearest integer. -/
theorem isNearest_roundDiv (num : ℕ) {den : ℕ} (hden : 0 < den) : IsNearest (num / den) (roundDiv num den) := by
  have hpos : (0 : ℚ) < den := by exact_mod_cast hden
  have hsum : (num : ℚ) = den * (num / den : ℕ) + (num % den : ℕ) := by exact_mod_cast (Nat.div_add_mod num den).symm
  have hquotient : (num : ℚ) / den = (num / den : ℕ) + (num % den : ℕ) / den := by
    rw [hsum]
    field_simp
  -- The three cases of the definition compare twice the remainder with the divisor.
  have hlt : (2 * (num % den) < den) ↔ ((num % den : ℕ) : ℚ) / den < 1 / 2 := by
    rw [div_lt_div_iff₀ hpos two_pos]
    norm_cast
    omega
  have hgt : (2 * (num % den) > den) ↔ 1 / 2 < ((num % den : ℕ) : ℚ) / den := by
    rw [div_lt_div_iff₀ two_pos hpos]
    norm_cast
    omega
  have hfraction : 0 ≤ ((num % den : ℕ) : ℚ) / den ∧ ((num % den : ℕ) : ℚ) / den < 1 := by
    refine ⟨by positivity, (div_lt_one hpos).2 ?_⟩
    exact_mod_cast Nat.mod_lt num hden
  generalize ((num % den : ℕ) : ℚ) / den = f at hquotient hlt hgt hfraction
  rw [hquotient]
  unfold roundDiv
  simp only [hlt, hgt]
  split
  · next h => exact ⟨by linarith, by linarith, fun htie => by rcases htie with htie | htie <;> linarith⟩
  · split
    · next h =>
      refine ⟨by push_cast; linarith, by push_cast; linarith, fun htie => ?_⟩
      push_cast at htie
      rcases htie with htie | htie <;> linarith
    · next h h' =>
      have hhalf : f = 1 / 2 := by linarith
      split
      · next heven => exact ⟨by linarith, by linarith, fun _ => heven⟩
      · next hodd => exact ⟨by push_cast; linarith, by push_cast; linarith, fun _ => by omega⟩

/-- There is one nearest integer. -/
theorem IsNearest.unique {t : ℚ} {m n : ℕ} (hm : IsNearest t m) (hn : IsNearest t n) : m = n := by
  have hle : ∀ {a b : ℕ}, IsNearest t a → IsNearest t b → a ≤ b := by
    intro a b ha hb
    by_contra hlt
    have hab : a ≤ b + 1 := by
      have : (a : ℚ) ≤ b + 1 := by linarith [ha.low, hb.high]
      exact_mod_cast this
    obtain rfl : a = b + 1 := by omega
    -- Two neighbours can both be nearest only halfway between them, and then one of them is odd.
    have hlow := ha.low
    push_cast at hlow
    have hhalf : t = b + 1 / 2 := by linarith [hb.high]
    have hodd := ha.tie (.inl (by push_cast; linarith))
    have heven := hb.tie (.inr hhalf)
    omega
  exact le_antisymm (hle hm hn) (hle hn hm)

/-! ## Units -/

theorem two_zpow_pos (q : ℤ) : (0 : ℚ) < 2 ^ q := zpow_pos two_pos q

theorem two_zpow_add (q : ℤ) (k : ℕ) : (2 : ℚ) ^ (q + k) = 2 ^ k * 2 ^ q := by
  rw [zpow_add₀ two_ne_zero, zpow_natCast, mul_comm]

theorem shiftLeft_pos {n : ℕ} (hn : n ≠ 0) (k : ℕ) : 0 < n <<< k := by
  rw [Nat.shiftLeft_eq]
  exact Nat.mul_pos (Nat.pos_of_ne_zero hn) (Nat.two_pow_pos k)

theorem shift_div_shift (num den : ℕ) (q : ℤ) :
    ((num <<< (-q).toNat : ℕ) : ℚ) / ((den <<< q.toNat : ℕ) : ℚ) = num / den / 2 ^ q := by
  rw [Nat.shiftLeft_eq, Nat.shiftLeft_eq]
  push_cast
  obtain hq | hq := le_total 0 q
  · obtain ⟨k, rfl⟩ := Int.eq_ofNat_of_zero_le hq
    rw [show (-(k : ℤ)).toNat = 0 by omega, Int.toNat_natCast, zpow_natCast, pow_zero, mul_one, div_div]
  · obtain ⟨k, hk⟩ := Int.eq_ofNat_of_zero_le (show 0 ≤ -q by omega)
    obtain rfl : q = -(k : ℤ) := by omega
    rw [show (-(k : ℤ)).toNat = 0 by omega, show (- -(k : ℤ)).toNat = k by omega, zpow_neg, zpow_natCast, pow_zero,
      mul_one, div_inv_eq_mul, mul_div_right_comm]

structure HasUnit (v : ℚ) (q : ℤ) : Prop where
  least : minExponent ≤ q
  high : v < 2 ^ (q + 53)
  low : q = minExponent ∨ 2 ^ (q + 52) ≤ v

/-- A number has one unit. -/
theorem HasUnit.unique {v : ℚ} {p q : ℤ} (hp : HasUnit v p) (hq : HasUnit v q) : p = q := by
  have hle : ∀ {a b : ℤ}, HasUnit v a → HasUnit v b → a ≤ b := by
    intro a b ha hb
    rcases ha.low with hmin | hlow
    · exact hmin ▸ hb.least
    · have hpow : a + 52 < b + 53 := (zpow_lt_zpow_iff_right₀ one_lt_two).1 (hlow.trans_lt hb.high)
      omega
  exact le_antisymm (hle hp hq) (hle hq hp)

/-- The binary logarithm of a ratio. -/
theorem log2Ratio_spec {num den : ℕ} (hnum : num ≠ 0) (hden : den ≠ 0) :
    (2 : ℚ) ^ log2Ratio num den ≤ num / den ∧ (num / den : ℚ) < 2 ^ (log2Ratio num den + 1) := by
  have hpos : (0 : ℚ) < den := by exact_mod_cast Nat.pos_of_ne_zero hden
  have hnumLow : (2 : ℚ) ^ num.log2 ≤ num := by exact_mod_cast Nat.log2_self_le hnum
  have hnumHigh : (num : ℚ) < 2 ^ (num.log2 + 1) := by exact_mod_cast Nat.lt_log2_self
  have hdenLow : (2 : ℚ) ^ den.log2 ≤ den := by exact_mod_cast Nat.log2_self_le hden
  have hdenHigh : (den : ℚ) < 2 ^ (den.log2 + 1) := by exact_mod_cast Nat.lt_log2_self
  have hestimate : ∀ a b : ℕ, (2 : ℚ) ^ ((a : ℤ) - b) = 2 ^ a / 2 ^ b := fun a b => by
    rw [zpow_sub₀ two_ne_zero, zpow_natCast, zpow_natCast]
  have hhigh : (num / den : ℚ) < 2 ^ ((num.log2 : ℤ) - den.log2 + 1) := by
    rw [show (num.log2 : ℤ) - den.log2 + 1 = ((num.log2 + 1 : ℕ) : ℤ) - den.log2 by omega, hestimate]
    exact div_lt_div₀ hnumHigh hdenLow (by positivity) (by positivity)
  have hlow : (2 : ℚ) ^ ((num.log2 : ℤ) - den.log2 - 1) ≤ num / den := by
    rw [show (num.log2 : ℤ) - den.log2 - 1 = num.log2 - ((den.log2 + 1 : ℕ) : ℤ) by omega, hestimate]
    exact div_le_div₀ (by positivity) hnumLow hpos hdenHigh.le
  unfold log2Ratio
  simp only
  generalize (num.log2 : ℤ) - den.log2 = k at hhigh hlow
  have hguess : den <<< k.toNat ≤ num <<< (-k).toNat ↔ (2 : ℚ) ^ k ≤ num / den := by
    have hshift : (0 : ℚ) < (den <<< k.toNat : ℕ) := by exact_mod_cast shiftLeft_pos hden k.toNat
    rw [← one_le_div (two_zpow_pos k), ← shift_div_shift, one_le_div hshift]
    norm_cast
  split
  · next h => exact ⟨hguess.1 h, hhigh⟩
  · next h =>
    rw [hguess, not_le] at h
    exact ⟨hlow, by rwa [sub_add_cancel]⟩

theorem hasUnit_max_log2Ratio {num den : ℕ} (hnum : num ≠ 0) (hden : den ≠ 0) :
    HasUnit (num / den) (max minExponent (log2Ratio num den - 52)) := by
  obtain ⟨hlow, hhigh⟩ := log2Ratio_spec hnum hden
  refine ⟨le_max_left _ _, hhigh.trans_le ?_, ?_⟩
  · exact zpow_le_zpow_right₀ one_le_two (by omega)
  · obtain h | h := le_total (log2Ratio num den - 52) minExponent
    · exact .inl (max_eq_left h)
    · rw [max_eq_right h, sub_add_cancel]
      exact .inr hlow

/-! ## Rounding a ratio -/

/-- A count of units as a value; the largest units are beyond the range. -/
def pack (negative : Bool) (m : ℕ) (q : ℤ) : Binary64 :=
  if q > maxExponent then .infinite negative else .finite negative m q

/-- A ratio is rounded to the nearest count of its units, which goes over to the next unit at `2 ^ 53`. -/
theorem ofRatio_eq {num den m : ℕ} {q : ℤ} (hnum : num ≠ 0) (hden : den ≠ 0) (hq : HasUnit (num / den) q)
    (hm : IsNearest (num / den / 2 ^ q) m) (negative : Bool) :
    ofRatio negative num den = if m = 2 ^ 53 then pack negative (2 ^ 52) (q + 1) else pack negative m q := by
  have hunit := (hasUnit_max_log2Ratio hnum hden).unique hq
  have hcount : roundDiv (num <<< (-q).toNat) (den <<< q.toNat) = m := by
    refine IsNearest.unique ?_ hm
    rw [← shift_div_shift]
    exact isNearest_roundDiv _ (shiftLeft_pos hden _)
  have h53 : 1 <<< 53 = 2 ^ 53 := by decide
  have h52 : 1 <<< 52 = 2 ^ 52 := by decide
  unfold ofRatio
  rw [if_neg hnum]
  simp only [hunit, hcount, h53, h52]
  split <;> rfl

/-- The one form in which a value is kept: its count of units is below `2 ^ 53`, and at least `2 ^ 52` unless the unit
is the least one. -/
def IsCanonical : Binary64 → Prop
  | .finite _ m q => m < 2 ^ 53 ∧ minExponent ≤ q ∧ q ≤ maxExponent ∧ (2 ^ 52 ≤ m ∨ q = minExponent)
  | _ => True

theorem isCanonical_pack {m : ℕ} {q : ℤ} (hm : m < 2 ^ 53) (hq : minExponent ≤ q) (hlow : 2 ^ 52 ≤ m ∨ q = minExponent)
    (negative : Bool) : (pack negative m q).IsCanonical := by
  unfold pack
  split
  · trivial
  · next hmax => exact ⟨hm, hq, not_lt.1 hmax, hlow⟩

/-- What rounding gives is in the one form. -/
theorem isCanonical_ofRatio (negative : Bool) (num : ℕ) {den : ℕ} (hden : den ≠ 0) :
    (ofRatio negative num den).IsCanonical := by
  by_cases hnum : num = 0
  · subst hnum
    exact ⟨by norm_num, le_rfl, by decide, .inr rfl⟩
  have hunit := hasUnit_max_log2Ratio hnum hden
  generalize max minExponent (log2Ratio num den - 52) = q at hunit
  obtain ⟨m, hm⟩ : ∃ m, IsNearest (num / den / 2 ^ q) m :=
    ⟨_, shift_div_shift num den q ▸ isNearest_roundDiv _ (shiftLeft_pos hden _)⟩
  have hle : m ≤ 2 ^ 53 := by
    have hhigh : (num / den / 2 ^ q : ℚ) < 2 ^ 53 := (div_lt_iff₀ (two_zpow_pos q)).2 (two_zpow_add q 53 ▸ hunit.high)
    have hcount : (m : ℚ) < 2 ^ 53 + 1 := by linarith [hm.low]
    exact Nat.lt_succ_iff.1 (by exact_mod_cast hcount)
  have hge : 2 ^ 52 ≤ m ∨ q = minExponent := by
    rcases hunit.low with hmin | hlow
    · exact .inr hmin
    · have hlow' : (2 : ℚ) ^ 52 ≤ num / den / 2 ^ q := (le_div_iff₀ (two_zpow_pos q)).2 (two_zpow_add q 52 ▸ hlow)
      have hcount : (2 : ℚ) ^ 52 < m + 1 := by linarith [hm.high]
      exact .inl (Nat.lt_succ_iff.1 (by exact_mod_cast hcount))
  rw [ofRatio_eq hnum hden hunit hm]
  have hleast := hunit.least
  split
  · exact isCanonical_pack (by norm_num) (by omega) (.inl le_rfl) _
  · exact isCanonical_pack (by omega) hleast hge _

/-- The numbers that are rounded to `m * 2 ^ q`: those nearest to it among the numbers of its unit and, if it is a power
of two, also among those of the next smaller unit. -/
structure RoundsTo (v : ℚ) (m : ℕ) (q : ℤ) : Prop where
  nearest : IsNearest (v / 2 ^ q) m
  edge : m = 2 ^ 52 → minExponent < q → (m : ℚ) - 1 / 4 ≤ v / 2 ^ q

/-- A ratio in the reach of a value is rounded to it. -/
theorem ofRatio_of_roundsTo {num den m : ℕ} {q : ℤ} {negative : Bool}
    (hform : (Binary64.finite negative m q).IsCanonical) (hnum : num ≠ 0) (hden : den ≠ 0)
    (h : RoundsTo (num / den) m q) : ofRatio negative num den = .finite negative m q := by
  obtain ⟨hm, hleast, hmost, hnormal⟩ := hform
  have hmrat : (m : ℚ) + 1 ≤ 2 ^ 53 := by exact_mod_cast hm
  have hfits : pack negative m q = .finite negative m q := if_neg (not_lt.2 hmost)
  have hhigh : (num / den : ℚ) / 2 ^ q < 2 ^ 53 := by linarith [h.nearest.high]
  by_cases hlow : q = minExponent ∨ (2 : ℚ) ^ 52 ≤ num / den / 2 ^ q
  · -- The unit of the value is the unit of the ratio.
    have hunit : HasUnit (num / den) q := by
      refine ⟨hleast, ?_, hlow.imp_right fun hlow => ?_⟩
      · exact (two_zpow_add q 53).symm ▸ (div_lt_iff₀ (two_zpow_pos q)).1 hhigh
      · exact (two_zpow_add q 52).symm ▸ (le_div_iff₀ (two_zpow_pos q)).1 hlow
    rw [ofRatio_eq hnum hden hunit h.nearest, if_neg (by omega), hfits]
  · -- The ratio lies just below the power of two, and takes `2 ^ 53` of the next smaller unit.
    rw [not_or, not_le] at hlow
    obtain ⟨hmin, hbelow⟩ := hlow
    have hpower : m = 2 ^ 52 := by
      have hcount : (m : ℚ) < 2 ^ 52 + 1 := by linarith [h.nearest.low]
      have hcount' : m < 2 ^ 52 + 1 := by exact_mod_cast hcount
      omega
    have hedge := h.edge hpower (by omega)
    rw [hpower] at hedge
    push_cast at hedge
    have hhalf : (2 : ℚ) ^ (q - 1) = 2 ^ q / 2 := by rw [zpow_sub_one₀ two_ne_zero, div_eq_mul_inv]
    have hdouble : (num / den : ℚ) / 2 ^ (q - 1) = num / den / 2 ^ q * 2 := by
      rw [hhalf, div_div_eq_mul_div, mul_div_right_comm]
    have hunit : HasUnit (num / den) (q - 1) := by
      refine ⟨by omega, ?_, .inr ?_⟩
      · rw [show q - 1 + 53 = q + (52 : ℕ) by omega, two_zpow_add]
        exact (div_lt_iff₀ (two_zpow_pos q)).1 hbelow
      · rw [show q - 1 + 52 = q + (51 : ℕ) by omega, two_zpow_add]
        exact (le_div_iff₀ (two_zpow_pos q)).1 (by linarith)
    have hnearest : IsNearest (num / den / 2 ^ (q - 1)) (2 ^ 53) := by
      rw [hdouble]
      refine ⟨?_, ?_, fun _ => by norm_num⟩
      · push_cast
        linarith
      · push_cast
        linarith
    rw [ofRatio_eq hnum hden hunit hnearest, if_pos rfl, sub_add_cancel, ← hpower, hfits]

end SourceAudit.Binary64
