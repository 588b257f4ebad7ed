import Mathlib.Data.List.Induction
import Mathlib.Data.List.Perm.Basic
import SourceAudit.Sorting

/-!
# Sorting is stable

What a sort by insertion keeps is told by one step: an item that comes last goes behind everything whose key is not
greater, and in front of the rest.

Results:
* `sortBy_perm`: sorting loses nothing.
* `pairwise_sortBy`: items stand in the order of their keys, and those with the same key in the order they had.
* `map_sortBy`: items that carry more than their key are sorted like what they carry it for.
-/
namespace SourceAudit

variable {α β κ : Type} [LE κ] [DecidableLE κ] {key : α → κ}

theorem insertBy_perm (key : α → κ) (item : α) (items : List α) : (insertBy key item items).Perm (item :: items) := by
  induction items with
  | nil => exact .refl _
  | cons first rest ih =>
    unfold insertBy
    split
    · exact (ih.cons first).trans (.swap item first rest)
    · exact .refl _

theorem sortBy_concat (key : α → κ) (items : List α) (item : α) :
    sortBy key (items ++ [item]) = insertBy key item (sortBy key items) := by
  rw [sortBy, List.foldl_concat, ← sortBy]

theorem sortBy_perm (key : α → κ) (items : List α) : (sortBy key items).Perm items := by
  induction items using List.reverseRecOn with
  | nil => exact .refl _
  | append_singleton items item ih =>
    rw [sortBy_concat]
    exact (insertBy_perm key item _).trans ((ih.cons item).trans (List.perm_append_singleton item items).symm)

theorem map_insertBy (f : β → α) (key : α → κ) (item : β) (items : List β) :
    (insertBy (key ∘ f) item items).map f = insertBy key (f item) (items.map f) := by
  induction items with
  | nil => rfl
  | cons first rest ih =>
    rw [List.map_cons, insertBy, insertBy, ← ih, apply_ite (List.map f)]
    rfl

/-- Items that carry more than their key are sorted like what they carry it for. -/
theorem map_sortBy (f : β → α) (key : α → κ) (items : List β) :
    (sortBy (key ∘ f) items).map f = sortBy key (items.map f) := by
  induction items using List.reverseRecOn with
  | nil => rfl
  | append_singleton items item ih =>
    rw [sortBy_concat, map_insertBy, ih, List.map_append, List.map_singleton, sortBy_concat]

variable [Std.IsLinearPreorder κ] {R : α → α → Prop}

/-- Whether one item stands rightly in front of another: by its key, and if the keys do not tell, by a relation. -/
def InOrder (key : α → κ) (R : α → α → Prop) (a b : α) : Prop := key a ≤ key b ∧ (key b ≤ key a → R a b)

theorem pairwise_insertBy {item : α} {items : List α} (h : items.Pairwise (InOrder key R))
    (hlast : ∀ a ∈ items, R a item) : (insertBy key item items).Pairwise (InOrder key R) := by
  induction items with
  | nil => exact List.pairwise_singleton ..
  | cons first rest ih =>
    obtain ⟨hfirst, hrest⟩ := List.pairwise_cons.1 h
    obtain ⟨hlastFirst, hlastRest⟩ := List.forall_mem_cons.1 hlast
    unfold insertBy
    split
    · next hle =>
      refine List.pairwise_cons.2 ⟨fun x hx => ?_, ih hrest hlastRest⟩
      rcases List.mem_cons.1 ((insertBy_perm key item rest).mem_iff.1 hx) with rfl | hx
      · exact ⟨hle, fun _ => hlastFirst⟩
      · exact hfirst x hx
    · next hnot =>
      -- Everything from here on has a greater key, so that nothing is asked of the relation.
      have hgreater : ∀ x ∈ first :: rest, key item ≤ key x ∧ ¬key x ≤ key item := by
        have hle : key item ≤ key first := Std.le_total.resolve_right hnot
        refine List.forall_mem_cons.2 ⟨⟨hle, hnot⟩, fun x hx => ?_⟩
        exact ⟨Std.le_trans hle (hfirst x hx).1, fun hge => hnot (Std.le_trans (hfirst x hx).1 hge)⟩
      refine List.pairwise_cons.2 ⟨fun x hx => ?_, h⟩
      exact ⟨(hgreater x hx).1, fun hge => absurd hge (hgreater x hx).2⟩

/-- Sorted items stand in the order of their keys, and those with the same key in the order they had. -/
theorem pairwise_sortBy {items : List α} (h : items.Pairwise R) : (sortBy key items).Pairwise (InOrder key R) := by
  induction items using List.reverseRecOn with
  | nil => exact .nil
  | append_singleton items item ih =>
    obtain ⟨hitems, -, hlast⟩ := List.pairwise_append.1 h
    rw [sortBy_concat]
    refine pairwise_insertBy (ih hitems) fun a ha => ?_
    exact hlast a ((sortBy_perm key items).mem_iff.1 ha) item List.mem_cons_self

theorem pairwise_le_sortBy (key : α → κ) (items : List α) : (sortBy key items).Pairwise fun a b => key a ≤ key b := by
  have hanyway : items.Pairwise fun _ _ => True := List.pairwise_of_forall fun _ _ => trivial
  exact (pairwise_sortBy hanyway).imp And.left

theorem sortBy_of_perm [Std.Antisymm fun a b : κ => a ≤ b] {keys keys' : List κ} (h : keys.Perm keys') :
    sortBy id keys = sortBy id keys' :=
  List.Perm.eq_of_pairwise (fun _ _ _ _ hle hge => Std.le_antisymm hle hge) (pairwise_le_sortBy id keys)
    (pairwise_le_sortBy id keys') ((sortBy_perm id keys).trans (h.trans (sortBy_perm id keys').symm))

end SourceAudit
