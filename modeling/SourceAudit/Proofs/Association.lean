import Mathlib.Data.List.Induction
import Mathlib.Data.List.Nodup
import SourceAudit.Association
import SourceAudit.Proofs.Lists

/-!
# Setting keys of an association list

An association list in which each key stands once is a finite map. Setting keys one after another gives such a list, in
which each key has the value that was set last.

Results:
* `lookup_set`, `nodup_set`: setting a key changes what is found under it, and keeps each key once.
* `lookup_ofPairs`: of values set for one key the last one counts.
* `lookup_eq_some_iff_mem`, `lookup_of_perm`: with each key once, what is found does not depend on the order.
* `lookup_setAll`: setting several keys changes what is found under these.
* `keys_foldl_update`, `lookup_foldl_update`: what items amount to that change the values of their keys in turn.
-/
namespace SourceAudit.Association

variable {α β : Type} [DecidableEq α] {key : α} {value : β} {pairs : List (α × β)}

theorem set_of_fresh (h : key ∉ pairs.map (·.1)) : set key value pairs = pairs ++ [(key, value)] := by
  induction pairs with
  | nil => rfl
  | cons first rest ih =>
    rw [List.map_cons, List.mem_cons, not_or] at h
    rw [set, if_neg (Ne.symm h.1), ih h.2, List.cons_append]

theorem lookup_cons (pair : α × β) (rest : List (α × β)) (k : α) :
    (pair :: rest).lookup k = if k = pair.1 then some pair.2 else rest.lookup k := by
  rw [List.lookup_cons]
  by_cases hk : k = pair.1
  · simp [hk]
  · simp [hk, beq_false_of_ne hk]

/-- Setting a key changes what is found under it and nothing else. -/
theorem lookup_set (key : α) (value : β) (pairs : List (α × β)) (k : α) :
    (set key value pairs).lookup k = if k = key then some value else pairs.lookup k := by
  induction pairs with
  | nil => rw [set, lookup_cons]
  | cons first rest ih =>
    obtain ⟨k', v⟩ := first
    rw [set]
    by_cases hfirst : k' = key
    · subst hfirst
      rw [if_pos rfl, lookup_cons, lookup_cons]
      by_cases hk : k = k' <;> simp [hk]
    · rw [if_neg hfirst, lookup_cons, lookup_cons, ih]
      by_cases hk : k = k'
      · subst hk
        simp [hfirst]
      · simp [hk]

theorem set_of_lookup (h : pairs.lookup key = some value) : set key value pairs = pairs := by
  induction pairs with
  | nil => cases h
  | cons first rest ih =>
    obtain ⟨k, v⟩ := first
    rw [lookup_cons] at h
    rw [set]
    by_cases hk : k = key
    · subst hk
      rw [if_pos rfl] at h
      cases h
      rw [if_pos rfl]
    · rw [if_neg (Ne.symm hk)] at h
      rw [if_neg hk, ih h]

theorem set_set (key : α) (value value' : β) (pairs : List (α × β)) :
    set key value' (set key value pairs) = set key value' pairs := by
  induction pairs with
  | nil => simp [set]
  | cons first rest ih =>
    obtain ⟨k, v⟩ := first
    by_cases hk : k = key <;> simp [set, hk, ih]

theorem mem_keys_set {k : α} : k ∈ (set key value pairs).map (·.1) ↔ k = key ∨ k ∈ pairs.map (·.1) := by
  induction pairs with
  | nil => simp [set]
  | cons first rest ih =>
    obtain ⟨k', v⟩ := first
    rw [set]
    by_cases hfirst : k' = key
    · subst hfirst
      simp
    · rw [if_neg hfirst, List.map_cons, List.mem_cons, ih, List.map_cons, List.mem_cons]
      exact or_left_comm

/-- Setting a key keeps each key once. -/
theorem nodup_set (h : (pairs.map (·.1)).Nodup) : ((set key value pairs).map (·.1)).Nodup := by
  induction pairs with
  | nil => simp [set]
  | cons first rest ih =>
    obtain ⟨k', v⟩ := first
    rw [List.map_cons, List.nodup_cons] at h
    rw [set]
    by_cases hfirst : k' = key
    · rw [if_pos hfirst]
      exact List.nodup_cons.2 h
    · rw [if_neg hfirst, List.map_cons, List.nodup_cons, mem_keys_set, not_or]
      exact ⟨⟨hfirst, h.1⟩, ih h.2⟩

/-- The map that pairs make when they are set one after another. -/
def ofPairs (pairs : List (α × β)) : List (α × β) := pairs.foldl (fun done pair => set pair.1 pair.2 done) []

theorem ofPairs_concat (pairs : List (α × β)) (pair : α × β) :
    ofPairs (pairs ++ [pair]) = set pair.1 pair.2 (ofPairs pairs) := by
  rw [ofPairs, List.foldl_append]
  rfl

theorem nodup_ofPairs (pairs : List (α × β)) : ((ofPairs pairs).map (·.1)).Nodup := by
  induction pairs using List.reverseRecOn with
  | nil => exact List.nodup_nil
  | append_singleton pairs pair ih =>
    rw [ofPairs_concat]
    exact nodup_set ih

theorem mem_keys_ofPairs {pairs : List (α × β)} {k : α} :
    k ∈ (ofPairs pairs).map (·.1) ↔ k ∈ pairs.map (·.1) := by
  induction pairs using List.reverseRecOn with
  | nil => rfl
  | append_singleton pairs pair ih =>
    rw [ofPairs_concat, mem_keys_set, ih, List.map_append, List.mem_append, List.map_singleton, List.mem_singleton]
    exact or_comm

/-- Of values set for one key the last one counts. -/
theorem lookup_ofPairs (pairs : List (α × β)) (k : α) : (ofPairs pairs).lookup k = pairs.reverse.lookup k := by
  induction pairs using List.reverseRecOn with
  | nil => rfl
  | append_singleton pairs pair ih =>
    rw [ofPairs_concat, lookup_set, ih, List.reverse_append, List.reverse_singleton, List.singleton_append, lookup_cons]

theorem ofPairs_of_nodup (h : (pairs.map (·.1)).Nodup) : ofPairs pairs = pairs := by
  induction pairs using List.reverseRecOn with
  | nil => rfl
  | append_singleton pairs pair ih =>
    rw [List.map_append, List.nodup_append] at h
    rw [ofPairs_concat, ih h.1, set_of_fresh fun hmem => h.2.2 _ hmem _ List.mem_cons_self rfl]

theorem mem_of_lookup {k : α} {v : β} (h : pairs.lookup k = some v) : (k, v) ∈ pairs := by
  obtain ⟨before, after, rfl, -⟩ := List.lookup_eq_some_iff.1 h
  simp

/-- With each key once, what is found under a key is the value that stands with it. -/
theorem lookup_eq_some_iff_mem (h : (pairs.map (·.1)).Nodup) {k : α} {v : β} :
    pairs.lookup k = some v ↔ (k, v) ∈ pairs := by
  refine ⟨mem_of_lookup, fun hmem => ?_⟩
  obtain ⟨before, after, rfl⟩ := List.append_of_mem hmem
  refine List.lookup_eq_some_iff.2 ⟨before, after, rfl, fun pair hpair => ?_⟩
  rw [List.map_append, List.nodup_append] at h
  simpa using Ne.symm (h.2.2 pair.1 (List.mem_map_of_mem hpair) k List.mem_cons_self)

/-- With each key once, what is found does not depend on the order. -/
theorem lookup_of_perm {pairs' : List (α × β)} (hperm : pairs.Perm pairs') (h : (pairs.map (·.1)).Nodup) (k : α) :
    pairs.lookup k = pairs'.lookup k := by
  have h' : (pairs'.map (·.1)).Nodup := (hperm.map _).nodup h
  refine Option.ext fun v => ?_
  rw [lookup_eq_some_iff_mem h, lookup_eq_some_iff_mem h', hperm.mem_iff]

theorem lookup_ne_none {k : α} : pairs.lookup k ≠ none ↔ k ∈ pairs.map (·.1) := by
  induction pairs with
  | nil => simp
  | cons first rest ih =>
    rw [lookup_cons, List.map_cons, List.mem_cons, ← ih]
    by_cases hk : k = first.1 <;> simp [hk]

/-- With each key once, it makes no difference where a pair stands. -/
theorem lookup_cons_eq_or {first : α × β} {rest : List (α × β)} (h : ((first :: rest).map (·.1)).Nodup) (k : α) :
    (first :: rest).lookup k = (rest.lookup k).or ([first].lookup k) := by
  rw [lookup_cons, lookup_cons, List.lookup_nil]
  by_cases hk : k = first.1
  · have hfresh : rest.lookup k = none := by
      by_contra hfound
      have hmem := lookup_ne_none.1 hfound
      rw [hk] at hmem
      exact (List.nodup_cons.1 h).1 hmem
    rw [hfresh, Option.none_or]
  · rw [if_neg hk, if_neg hk, Option.or_none]

/-! ## Setting several keys -/

/-- An association list with the keys of another set to the values that they have there. -/
def setAll (values pairs : List (α × β)) : List (α × β) :=
  values.foldl (fun done pair => set pair.1 pair.2 done) pairs

theorem setAll_cons (first : α × β) (rest pairs : List (α × β)) :
    setAll (first :: rest) pairs = setAll rest (set first.1 first.2 pairs) := rfl

theorem nodup_setAll (values : List (α × β)) (h : (pairs.map (·.1)).Nodup) :
    ((setAll values pairs).map (·.1)).Nodup := by
  induction values generalizing pairs with
  | nil => exact h
  | cons first rest ih => exact ih (nodup_set h)

theorem mem_keys_setAll {values : List (α × β)} {k : α} :
    k ∈ (setAll values pairs).map (·.1) ↔ k ∈ values.map (·.1) ∨ k ∈ pairs.map (·.1) := by
  induction values generalizing pairs with
  | nil => simp [setAll]
  | cons first rest ih =>
    rw [setAll_cons, ih, mem_keys_set, List.map_cons, List.mem_cons, or_left_comm, or_assoc]

/-- Setting keys changes what is found under them and nothing else. -/
theorem lookup_setAll {values : List (α × β)} (h : (values.map (·.1)).Nodup) (pairs : List (α × β)) (k : α) :
    (setAll values pairs).lookup k = (values.lookup k).or (pairs.lookup k) := by
  induction values generalizing pairs with
  | nil => rfl
  | cons first rest ih =>
    rw [setAll_cons, ih (List.nodup_cons.1 h).2, lookup_cons_eq_or h, Option.or_assoc, lookup_set, lookup_cons]
    split <;> rfl

/-! ## Changing values -/

theorem keys_set (key : α) (value : β) (pairs : List (α × β)) :
    (set key value pairs).map (·.1) =
      if key ∈ pairs.map (·.1) then pairs.map (·.1) else pairs.map (·.1) ++ [key] := by
  induction pairs with
  | nil => rfl
  | cons first rest ih =>
    obtain ⟨k, v⟩ := first
    by_cases hk : k = key
    · simp [set, hk]
    · rw [set, if_neg hk, List.map_cons, ih, List.map_cons]
      simp only [List.mem_cons, or_iff_right (Ne.symm hk)]
      split <;> rfl

theorem eq_map_lookup (initial : β) (h : (pairs.map (·.1)).Nodup) :
    pairs = (pairs.map (·.1)).map fun k => (k, (pairs.lookup k).getD initial) := by
  rw [List.map_map]
  refine (List.map_id pairs).symm.trans (List.map_congr_left fun pair hpair => ?_)
  rw [Function.comp_apply, (lookup_eq_some_iff_mem h).2 hpair]
  rfl

section Update

variable {γ : Type} (keyOf : γ → α) (initial : β) (change : γ → β → β)

/-- The items that have a key change its value in turn. -/
theorem lookup_foldl_update (items : List γ) (pairs : List (α × β)) (k : α) :
    ((items.foldl (fun done x => update (keyOf x) initial (change x) done) pairs).lookup k).getD initial =
      (items.filter (keyOf · = k)).foldl (fun v x => change x v) ((pairs.lookup k).getD initial) := by
  induction items generalizing pairs with
  | nil => rfl
  | cons x items ih =>
    rw [List.foldl_cons, ih, update, lookup_set]
    by_cases hk : keyOf x = k
    · rw [if_pos hk.symm, List.filter_cons, if_pos (decide_eq_true hk), List.foldl_cons, hk, Option.getD_some]
    · rw [if_neg (Ne.symm hk), List.filter_cons, if_neg (by simpa using hk)]

/-- Keys stand in the order in which items with them came first. -/
theorem keys_foldl_update (items : List γ) :
    (items.foldl (fun done x => update (keyOf x) initial (change x) done) []).map (·.1) =
      (items.map keyOf).eraseDups := by
  induction items using List.reverseRecOn with
  | nil => rfl
  | append_singleton items x ih =>
    rw [List.foldl_concat, update, keys_set, ih, List.map_append, List.map_singleton, eraseDups_concat]
    simp only [List.mem_eraseDups]

theorem keys_foldl_update_of_mem {items : List γ} (h : ∀ x ∈ items, keyOf x ∈ pairs.map (·.1)) :
    (items.foldl (fun done x => update (keyOf x) initial (change x) done) pairs).map (·.1) = pairs.map (·.1) := by
  induction items using List.reverseRecOn with
  | nil => rfl
  | append_singleton items x ih =>
    obtain ⟨hitems, hx⟩ := List.forall_mem_append.1 h
    rw [List.foldl_concat, update, keys_set, ih hitems, if_pos (hx x List.mem_cons_self)]

end Update

end SourceAudit.Association
