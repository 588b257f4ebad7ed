import SourceAudit.Proofs.Disk.Order
import SourceAudit.Proofs.Disk.Resolve

/-!
# Candidate files

On a proper disk a candidate is known by its path below the root of the tree: no two candidates share it, it is never
empty, and it tells the language of the file.

Results:
* `mem_candidates`: a candidate stands at some file names below the root.
* `nodup_relatives`: no two candidates have the same path below the root.
* `language_relative`: the path below the root tells the language.
-/
namespace SourceAudit.Disk

variable {d : Disk} {ignored : List String} {root : Path} {filter : FileFilter}

theorem isDir_of_candidates (h : d.candidates ignored root filter ≠ []) : d.isDir root = true := by
  obtain ⟨c, hc⟩ := List.exists_mem_of_ne_nil _ h
  obtain ⟨names, hnames, -⟩ := List.mem_map.1 (List.mem_filter.1 hc).1
  unfold listing at hnames
  cases hloc : d.locate true root with
  | error fault => rw [hloc] at hnames; cases hnames
  | ok spot =>
    rw [hloc] at hnames
    cases spot with
    | free directory name => cases hnames
    | taken place node =>
      have hfind : d.find? root = some node := by rw [find?, hloc]
      rw [isDir, hfind]
      cases node with
      | file | locked | link => cases hnames
      | dir entries => rfl

theorem mem_listing (hp : d.root.isProper = true) {names : List String} (h : names ∈ d.listing ignored root) :
    names ≠ [] ∧ ∀ n ∈ names, isFileName n = true := by
  unfold listing at h
  split at h
  · next place node hloc =>
    obtain ⟨-, -, -, hget⟩ := leads_of_locate hloc
    exact ⟨Node.ne_nil_of_mem_listing h, Node.isFileName_of_mem_listing (Node.isProper_of_get? hp hget).1 h⟩
  · cases h

theorem pairwise_listing (hp : d.root.isProper = true) : (d.listing ignored root).Pairwise Place.Precedes := by
  unfold listing
  split
  · next place node hloc =>
    obtain ⟨-, -, -, hget⟩ := leads_of_locate hloc
    exact Node.pairwise_listing (Node.isProper_of_get? hp hget).1 []
  · exact .nil

/-- A candidate stands at some file names below the root. -/
theorem mem_candidates (hp : d.root.isProper = true) {c : Candidate} (h : c ∈ d.candidates ignored root filter) :
    ∃ names, names ≠ [] ∧ (∀ n ∈ names, isFileName n = true) ∧
      c = ⟨{ root with names := root.names ++ names }, "/".intercalate names⟩ := by
  obtain ⟨names, hnames, rfl⟩ := List.mem_map.1 (List.mem_filter.1 h).1
  obtain ⟨hne, hfile⟩ := mem_listing hp hnames
  exact ⟨names, hne, hfile, rfl⟩

theorem relative_ne_empty (hp : d.root.isProper = true) {c : Candidate} (h : c ∈ d.candidates ignored root filter) :
    c.relative ≠ "" := by
  obtain ⟨names, hne, hfile, rfl⟩ := mem_candidates hp h
  exact Path.intercalate_ne_empty hne hfile

/-- The path below the root tells the language. -/
theorem language_relative (hp : d.root.isProper = true) {c : Candidate} (h : c ∈ d.candidates ignored root filter) :
    Language.ofPath? (.ofString c.relative) = Language.ofPath? c.path := by
  obtain ⟨names, hne, hfile, rfl⟩ := mem_candidates hp h
  exact Language.ofPath?_relative root.root root.names hne hfile

/-- No two candidates have the same path below the root. -/
theorem nodup_relatives (hp : d.root.isProper = true) :
    ((d.candidates ignored root filter).map (·.relative)).Nodup := by
  have hall : ((d.listing ignored root).map ("/".intercalate ·)).Nodup := by
    refine List.Nodup.map_on (fun names h names' h' e => ?_) (pairwise_listing hp).nodup
    obtain ⟨hne, hfile⟩ := mem_listing hp h
    obtain ⟨hne', hfile'⟩ := mem_listing hp h'
    exact Path.intercalate_inj hne hne' hfile hfile' e
  unfold candidates
  refine List.Nodup.sublist (List.filter_sublist.map _) ?_
  rw [List.map_map]
  exact hall

end SourceAudit.Disk
