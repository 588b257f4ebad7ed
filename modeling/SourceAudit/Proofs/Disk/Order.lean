import Mathlib.Data.List.Sort
import Mathlib.Data.String.Basic
import SourceAudit.Proofs.Association
import SourceAudit.Proofs.Disk.Tree

/-!
# The order of a listing

A listing goes through a tree directory by directory: first the files of a directory by their names, then what its
subdirectories hold, by theirs. Two paths are therefore compared at the directory in which they part. The order does not
mention the tree, so a listing is determined by the paths that are in it.

Results:
* `Place.Precedes.asymm`: of two paths at most one comes before the other.
* `Item.pairwise_arrange`: items with different names are arranged in ascending order.
* `Node.pairwise_listing`: a proper tree is listed in strictly ascending order.
-/
namespace SourceAudit

/-! ## Paths that part -/

/-- Whether a path comes before another in a listing. They part at some directory, in which their next names differ. A
file of that directory comes before what is inside a subdirectory of it; of two files and of two subdirectories the
names decide, which are compared by code point. -/
def Place.Precedes (p q : Place) : Prop :=
  ∃ above x y below below', p = above ++ x :: below ∧ q = above ++ y :: below' ∧ x ≠ y ∧
    (below = [] ∧ below' ≠ [] ∨ (below = [] ↔ below' = []) ∧ x < y)

namespace Place

theorem parting_unique {above above' : Place} {x y x' y' : String} {p q p' q' : Place} (hne : x ≠ y) (hne' : x' ≠ y')
    (hp : above ++ x :: p = above' ++ x' :: p') (hq : above ++ y :: q = above' ++ y' :: q') : above = above' := by
  induction above generalizing above' with
  | nil =>
    cases above' with
    | nil => rfl
    | cons first rest => exact absurd ((List.cons.inj hp).1.trans (List.cons.inj hq).1.symm) hne
  | cons first rest ih =>
    cases above' with
    | nil => exact absurd ((List.cons.inj hp).1.symm.trans (List.cons.inj hq).1) hne'
    | cons first' rest' =>
      rw [(List.cons.inj hp).1, ih (List.cons.inj hp).2 (List.cons.inj hq).2]

namespace Precedes

variable {p q : Place}

theorem append (front : Place) (h : Precedes p q) : Precedes (front ++ p) (front ++ q) := by
  obtain ⟨above, x, y, below, below', rfl, rfl, hne, hcompare⟩ := h
  exact ⟨front ++ above, x, y, below, below', (List.append_assoc ..).symm, (List.append_assoc ..).symm, hne, hcompare⟩

/-- Of two paths at most one comes before the other. -/
theorem asymm (h : Precedes p q) : ¬Precedes q p := by
  rintro ⟨above', x', y', below₁, below₂, hq, hp, hne', hcompare'⟩
  obtain ⟨above, x, y, below, below', rfl, rfl, hne, hcompare⟩ := h
  obtain rfl := parting_unique hne hne'.symm hp hq
  obtain ⟨rfl, rfl⟩ := List.cons.inj (List.append_cancel_left hp)
  obtain ⟨rfl, rfl⟩ := List.cons.inj (List.append_cancel_left hq)
  rcases hcompare with ⟨hfile, hinside⟩ | ⟨hkind, hlt⟩
  · rcases hcompare' with ⟨hfile', -⟩ | ⟨hkind', -⟩
    · exact hinside hfile'
    · exact hinside (hkind'.2 hfile)
  · rcases hcompare' with ⟨hfile', hinside'⟩ | ⟨-, hlt'⟩
    · exact hinside' (hkind.2 hfile')
    · exact lt_asymm hlt hlt'

end Precedes

instance : Std.Asymm Place.Precedes := ⟨fun _ _ => Precedes.asymm⟩

end Place

/-! ## Items -/

namespace Item

/-- Items with different names are arranged in ascending order, if what the directories hold is. -/
theorem pairwise_arrange {items : List (String × Item)} (hnames : (items.map (·.1)).Nodup)
    (hpaths : ∀ name paths, (name, Item.directory paths) ∈ items → paths.Pairwise Place.Precedes ∧ [] ∉ paths) :
    (arrange items).Pairwise Place.Precedes := by
  have hsorted : ((sortBy (·.1) items).map (·.1)).Nodup := ((sortBy_perm _ items).map _).nodup_iff.2 hnames
  have hlt : (sortBy (·.1) items).Pairwise fun a b => a.1 < b.1 :=
    (pairwise_le_sortBy _ items).imp₂ (fun _ _ hle hne => lt_of_le_of_ne hle hne) (List.pairwise_map.1 hsorted)
  have hnested : ∀ name paths, (name, Item.directory paths) ∈ sortBy (·.1) items →
      paths.Pairwise Place.Precedes ∧ [] ∉ paths :=
    fun name paths hmem => hpaths name paths ((sortBy_perm _ items).mem_iff.1 hmem)
  unfold arrange
  refine List.pairwise_append.2 ⟨?_, ?_, ?_⟩
  · -- Two files part where they stand.
    unfold files
    rw [List.pairwise_filterMap]
    refine hlt.imp ?_
    rintro ⟨name, item⟩ ⟨name', item'⟩ hname p hp p' hp'
    cases item <;> simp only [reduceCtorEq, Option.some.injEq] at hp
    cases item' <;> simp only [reduceCtorEq, Option.some.injEq] at hp'
    subst hp hp'
    exact ⟨[], name, name', [], [], rfl, rfl, hname.ne, .inr ⟨.rfl, hname⟩⟩
  · -- What one directory holds parts below it, what two directories hold parts at their names.
    unfold nested
    rw [List.pairwise_flatMap]
    refine ⟨?_, List.Pairwise.imp_of_mem ?_ hlt⟩
    · rintro ⟨name, item⟩ hmem
      cases item with
      | file => exact .nil
      | other => exact .nil
      | directory paths => exact List.pairwise_map.2 ((hnested name paths hmem).1.imp (.append [name]))
    · rintro ⟨name, item⟩ ⟨name', item'⟩ hmem hmem' hname p hp p' hp'
      cases item <;> simp only [List.not_mem_nil, List.mem_map] at hp
      cases item' <;> simp only [List.not_mem_nil, List.mem_map] at hp'
      obtain ⟨below, hbelow, rfl⟩ := hp
      obtain ⟨below', hbelow', rfl⟩ := hp'
      have hne : below ≠ [] := fun h => (hnested _ _ hmem).2 (h ▸ hbelow)
      have hne' : below' ≠ [] := fun h => (hnested _ _ hmem').2 (h ▸ hbelow')
      exact ⟨[], name, name', below, below', rfl, rfl, hname.ne, .inr ⟨iff_of_false hne hne', hname⟩⟩
  · -- A file comes before what a directory holds; no name is that of both.
    intro p hp p' hp'
    obtain ⟨⟨name, item⟩, hmem, h⟩ := List.mem_filterMap.1 hp
    obtain ⟨⟨name', item'⟩, hmem', h'⟩ := List.mem_flatMap.1 hp'
    cases item <;> simp only [reduceCtorEq, Option.some.injEq] at h
    cases item' <;> simp only [List.not_mem_nil, List.mem_map] at h'
    obtain ⟨below, hbelow, rfl⟩ := h'
    subst h
    have hne : below ≠ [] := fun hnil => (hnested _ _ hmem').2 (hnil ▸ hbelow)
    refine ⟨[], name, name', [], below, rfl, rfl, ?_, .inl ⟨rfl, hne⟩⟩
    rintro rfl
    have hfile := (Association.lookup_eq_some_iff_mem hsorted).2 hmem
    rw [(Association.lookup_eq_some_iff_mem hsorted).2 hmem'] at hfile
    cases hfile

end Item

/-! ## Listings -/

namespace Node

variable {ignored : List String} {linksToFile : Place → Bool}

/-- A proper tree is listed in strictly ascending order. -/
theorem pairwise_listing {node : Node} (hp : node.isProper = true) (place : Place) :
    (node.listing ignored linksToFile place).Pairwise Place.Precedes := by
  induction node using Node.induction generalizing place with
  | file | locked | link => exact .nil
  | dir entries ih =>
    obtain ⟨hnames, hentries⟩ := (isProper_dir entries).1 hp
    rw [listing]
    apply Item.pairwise_arrange
    · rw [items_eq_map, List.map_map]
      exact hnames
    · intro name paths hmem
      rw [items_eq_map] at hmem
      obtain ⟨e, he, heq⟩ := List.mem_map.1 hmem
      obtain ⟨rfl, hitem⟩ := Prod.mk.inj heq
      obtain ⟨-, -, rfl⟩ := item_eq_directory.1 hitem
      exact ⟨ih e he (hentries e he).2 _, fun hnil => ne_nil_of_mem_listing hnil rfl⟩

end Node
end SourceAudit
