import Mathlib.Algebra.BigOperators.Group.List.Basic
import Mathlib.Algebra.GroupWithZero.Nat
import Mathlib.Data.List.Induction
import Mathlib.Data.List.Nodup

/-!
# Lists

First occurrences, and counts by buckets.

Results:
* `nodup_eraseDups`, `pairwise_eraseDups`: first occurrences differ, and stand in the order in which they occur.
* `eraseDups_concat`: what comes once more adds nothing to them.
* `sum_countP`: counts by buckets add up to the number of items.
-/
namespace SourceAudit

/-! ## First occurrences -/

theorem eraseDups_of_forall_eq {α : Type} [BEq α] [LawfulBEq α] {xs : List α} {x : α} (hne : xs ≠ [])
    (h : ∀ y ∈ xs, y = x) : xs.eraseDups = [x] := by
  cases xs with
  | nil => exact absurd rfl hne
  | cons y ys =>
    have hnone : ys.filter (fun z => !z == y) = [] :=
      List.filter_eq_nil_iff.2 fun z hz => by
        simp [h z (List.mem_cons_of_mem _ hz), h y List.mem_cons_self]
    rw [List.eraseDups_cons, hnone, h y List.mem_cons_self, List.eraseDups_nil]

theorem nodup_eraseDups {α : Type} [BEq α] [LawfulBEq α] : ∀ xs : List α, xs.eraseDups.Nodup
  | [] => by simp
  | x :: xs => by
    rw [List.eraseDups_cons, List.nodup_cons, List.mem_eraseDups]
    exact ⟨by simp, nodup_eraseDups _⟩
termination_by xs => xs.length
decreasing_by exact Nat.lt_succ_of_le (List.length_filter_le _ _)

/-- What comes once more behind a list adds nothing to its first occurrences. -/
theorem eraseDups_concat {α : Type} [DecidableEq α] (xs : List α) (x : α) :
    (xs ++ [x]).eraseDups = if x ∈ xs then xs.eraseDups else xs.eraseDups ++ [x] := by
  rw [List.eraseDups_append]
  by_cases hx : x ∈ xs
  · simp [hx, List.removeAll]
  · simp [hx, List.removeAll, List.eraseDups_cons]

/-- First occurrences stand in the order in which they occur. -/
theorem pairwise_eraseDups {α : Type} [DecidableEq α] (xs : List α) :
    xs.eraseDups.Pairwise fun a b => xs.idxOf a < xs.idxOf b := by
  induction xs using List.reverseRecOn with
  | nil => simp
  | append_singleton xs x ih =>
    have hkeeps : xs.eraseDups.Pairwise fun a b => (xs ++ [x]).idxOf a < (xs ++ [x]).idxOf b := by
      refine ih.imp_of_mem fun {a b} ha hb hlt => ?_
      rwa [List.idxOf_append_of_mem (List.mem_eraseDups.1 ha), List.idxOf_append_of_mem (List.mem_eraseDups.1 hb)]
    rw [eraseDups_concat]
    split
    · exact hkeeps
    · next hx =>
      refine List.pairwise_append.2 ⟨hkeeps, List.pairwise_singleton _ _, fun a ha b hb => ?_⟩
      obtain rfl := List.mem_singleton.1 hb
      have ha := List.mem_eraseDups.1 ha
      rw [List.idxOf_append_of_mem ha, List.idxOf_append_of_notMem hx]
      exact Nat.lt_of_lt_of_le (List.idxOf_lt_length_of_mem ha) (Nat.le_add_right _ _)

/-! ## Buckets -/

/-- Counts by buckets add up to the number of items, if each item falls into one of them. -/
theorem sum_countP {α β : Type} [DecidableEq β] (key : α → β) {buckets : List β} (hbuckets : buckets.Nodup)
    {xs : List α} (h : ∀ x ∈ xs, key x ∈ buckets) : (buckets.map fun b => xs.countP (key · = b)).sum = xs.length := by
  induction xs with
  | nil => simp
  | cons x xs ih =>
    obtain ⟨hx, hxs⟩ := List.forall_mem_cons.1 h
    have hone : (buckets.map fun b => if decide (key x = b) = true then 1 else 0).sum = 1 := by
      rw [List.sum_map_eq_nsmul_single (key x), List.count_eq_one_of_mem hbuckets hx]
      · simp
      · intro b hb _
        simp [Ne.symm hb]
    simp only [List.countP_cons, List.sum_map_add, ih hxs, hone, List.length_cons]

end SourceAudit
