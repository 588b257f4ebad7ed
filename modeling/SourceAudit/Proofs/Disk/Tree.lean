import Mathlib.Data.List.Nodup
import SourceAudit.Disk.Listing
import SourceAudit.Proofs.Path
import SourceAudit.Proofs.Sorting

/-!
# Proper trees

A tree is proper if in each of its directories the entries have different names, and names that a file can have, as
every file system sees to. The listing of a proper tree names each file by names that a file can have.

Results:
* `Node.isProper_of_get?`: what stands in a proper tree is proper, at a place of file names.
* `Node.mem_listing_dir`: a directory lists its files and what its subdirectories list.
* `Node.isFileName_of_mem_listing`: a proper tree lists files by file names.
-/
namespace SourceAudit

namespace Node

mutual
/-- Whether in each directory of a tree the entries have different names, and names that a file can have. -/
def isProper : Node → Bool
  | .dir entries => decide (entries.map (·.1)).Nodup && areProper entries
  | _ => true

def entryIsProper : String × Node → Bool
  | (name, node) => isFileName name && node.isProper

/-- Whether entries have names of files and are proper trees. -/
def areProper : List (String × Node) → Bool
  | [] => true
  | entry :: rest => entryIsProper entry && areProper rest
end

theorem areProper_iff (entries : List (String × Node)) :
    areProper entries = true ↔ ∀ e ∈ entries, isFileName e.1 = true ∧ e.2.isProper = true := by
  induction entries with
  | nil => simp [areProper]
  | cons e rest ih =>
    obtain ⟨name, node⟩ := e
    simp [areProper, entryIsProper, ih]

theorem isProper_dir (entries : List (String × Node)) :
    (dir entries).isProper = true ↔
      (entries.map (·.1)).Nodup ∧ ∀ e ∈ entries, isFileName e.1 = true ∧ e.2.isProper = true := by
  rw [← areProper_iff]
  simp [isProper]

/-- Induction over a tree, directory by directory. -/
@[elab_as_elim]
theorem induction {P : Node → Prop} (file : ∀ bytes, P (.file bytes)) (locked : ∀ size, P (.locked size))
    (link : ∀ target, P (.link target)) (dir : ∀ entries, (∀ e ∈ entries, P e.2) → P (.dir entries)) (node : Node) :
    P node :=
  @Node.rec P (fun entries => ∀ e ∈ entries, P e.2) (fun e => P e.2) file locked (fun entries ih => dir entries ih) link
    (by simp) (fun _ _ he hrest e hmem => (List.mem_cons.1 hmem).elim (fun h => h ▸ he) (hrest e)) (fun _ _ h => h) node

/-- What stands in a proper tree is proper, at a place of file names. -/
theorem isProper_of_get? {node m : Node} {place : Place} (hp : node.isProper = true)
    (h : node.get? place = some m) : m.isProper = true ∧ ∀ n ∈ place, isFileName n = true := by
  induction place generalizing node with
  | nil =>
    rw [get?] at h
    cases h
    exact ⟨hp, by simp⟩
  | cons name rest ih =>
    cases node with
    | file | locked | link => cases h
    | dir entries =>
      rw [get?] at h
      cases hl : entries.lookup name with
      | none => rw [hl] at h; cases h
      | some child =>
        rw [hl] at h
        obtain ⟨pre, post, rfl, -⟩ := List.lookup_eq_some_iff.1 hl
        obtain ⟨hname, hchild⟩ := ((isProper_dir _).1 hp).2 (name, child) (by simp)
        obtain ⟨hm, hrest⟩ := ih hchild h
        exact ⟨hm, by simpa using ⟨hname, hrest⟩⟩

end Node

/-! ## Items -/

namespace Item

theorem mem_arrange {items : List (String × Item)} {names : List String} :
    names ∈ arrange items ↔
      (∃ name, (name, Item.file) ∈ items ∧ names = [name]) ∨
        ∃ name paths rest, (name, Item.directory paths) ∈ items ∧ rest ∈ paths ∧ names = name :: rest := by
  unfold arrange
  simp only [List.mem_append]
  refine or_congr ?_ ?_
  · simp only [files, List.mem_filterMap, (sortBy_perm _ items).mem_iff]
    constructor
    · rintro ⟨⟨name, item⟩, hmem, h⟩
      cases item <;> simp at h
      exact ⟨name, hmem, h.symm⟩
    · rintro ⟨name, hmem, rfl⟩
      exact ⟨(name, .file), hmem, rfl⟩
  · simp only [nested, List.mem_flatMap, (sortBy_perm _ items).mem_iff]
    constructor
    · rintro ⟨⟨name, item⟩, hmem, h⟩
      cases item <;> simp at h
      obtain ⟨rest, hrest, rfl⟩ := h
      exact ⟨name, _, rest, hmem, hrest, rfl⟩
    · rintro ⟨name, paths, rest, hmem, hrest, rfl⟩
      exact ⟨(name, .directory paths), hmem, List.mem_map_of_mem hrest⟩

end Item

/-! ## Listings -/

namespace Node

variable {ignored : List String} {linksToFile : Place → Bool}

theorem items_eq_map (place : Place) (entries : List (String × Node)) :
    items ignored linksToFile place entries =
      entries.map fun e => (e.1, e.2.item ignored linksToFile place e.1) := by
  induction entries with
  | nil => rfl
  | cons e rest ih =>
    obtain ⟨name, node⟩ := e
    rw [items, entryItem, ih]
    rfl

theorem item_eq_directory {place : Place} {name : String} {node : Node} {paths : List (List String)} :
    node.item ignored linksToFile place name = .directory paths ↔
      node.isDir = true ∧ name ∉ ignored ∧ paths = node.listing ignored linksToFile (place ++ [name]) := by
  cases node with
  | file bytes => simp [item, isDir]
  | locked size => simp [item, isDir]
  | link target => simp only [item, isDir]; split <;> simp
  | dir entries =>
    simp only [item, isDir, listing]
    by_cases h : name ∈ ignored <;> simp [h, eq_comm]

/-- A directory lists its files and what its subdirectories list. -/
theorem mem_listing_dir {place : Place} {entries : List (String × Node)} {names : List String} :
    names ∈ (dir entries).listing ignored linksToFile place ↔
      (∃ name node, (name, node) ∈ entries ∧ node.item ignored linksToFile place name = .file ∧ names = [name]) ∨
        ∃ name node rest, (name, node) ∈ entries ∧ name ∉ ignored ∧
          rest ∈ node.listing ignored linksToFile (place ++ [name]) ∧ names = name :: rest := by
  rw [listing, Item.mem_arrange, items_eq_map]
  simp only [List.mem_map, Prod.mk.injEq]
  refine or_congr ?_ ?_
  · constructor
    · rintro ⟨name, ⟨⟨name', node⟩, hmem, rfl, h⟩, rfl⟩
      exact ⟨name', node, hmem, h, rfl⟩
    · rintro ⟨name, node, hmem, h, rfl⟩
      exact ⟨name, ⟨(name, node), hmem, rfl, h⟩, rfl⟩
  · constructor
    · rintro ⟨name, paths, rest, ⟨⟨name', node⟩, hmem, rfl, h⟩, hrest, rfl⟩
      obtain ⟨-, hign, rfl⟩ := item_eq_directory.1 h
      exact ⟨name', node, rest, hmem, hign, hrest, rfl⟩
    · rintro ⟨name, node, rest, hmem, hign, hrest, rfl⟩
      have hdir : node.isDir = true := by cases node <;> simp_all [listing, isDir]
      exact ⟨name, _, rest, ⟨(name, node), hmem, rfl, item_eq_directory.2 ⟨hdir, hign, rfl⟩⟩, hrest, rfl⟩

theorem ne_nil_of_mem_listing {node : Node} {place : Place} {names : List String}
    (h : names ∈ node.listing ignored linksToFile place) : names ≠ [] := by
  cases node with
  | file | locked | link => cases h
  | dir entries =>
    rcases mem_listing_dir.1 h with ⟨_, _, -, -, rfl⟩ | ⟨_, _, _, -, -, -, rfl⟩ <;> simp

/-- A proper tree lists files by file names. -/
theorem isFileName_of_mem_listing {node : Node} (hp : node.isProper = true) {place : Place} {names : List String}
    (h : names ∈ node.listing ignored linksToFile place) : ∀ n ∈ names, isFileName n = true := by
  induction node using Node.induction generalizing place names with
  | file | locked | link => cases h
  | dir entries ih =>
    have hentries := ((isProper_dir entries).1 hp).2
    rcases mem_listing_dir.1 h with ⟨name, node, hmem, -, rfl⟩ | ⟨name, node, rest, hmem, -, hrest, rfl⟩
    · simpa using (hentries _ hmem).1
    · simpa using ⟨(hentries _ hmem).1, ih _ hmem (hentries _ hmem).2 hrest⟩

end Node
end SourceAudit
