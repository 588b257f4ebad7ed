import SourceAudit.Proofs.Disk.Candidates
import SourceAudit.Proofs.Disk.Growth

/-!
# Visible files

A file of a tree is visible if one comes to it through directories none of which has an ignored name. Links are followed
at the end only: a link to a file is visible like the file, one to a directory is not entered. A listing holds exactly
the visible files, and its order is that of their paths, so the order in which a directory gives its entries makes no
difference.

Results:
* `Node.mem_listing_iff`, `Disk.mem_listing_iff`: a listing holds exactly what is visible.
* `Node.Rearranged.keeps`: a tree whose entries come in another order holds the same at each place.
* `Disk.Visible.mono`: what is visible on a disk is visible on one that has grown.
* `Disk.candidates_canonical`: candidates are the visible files that the filter selects, each once and in order.
-/
namespace SourceAudit

namespace Node

/-! ## What a listing holds -/

variable {ignored : List String} {linksToFile : Place → Bool}

theorem item_eq_file {node : Node} {place : Place} {name : String} :
    node.item ignored linksToFile place name = .file ↔
      node.isFile = true ∨ node.isLink = true ∧ linksToFile (place ++ [name]) = true := by
  cases node with
  | file | locked => simp [item, isFile]
  | link target => simp [item, isFile, isLink]
  | dir entries =>
    simp only [item, isFile, isLink]
    split <;> simp

/-- The listing of a proper tree holds the files and the links to files that stand behind directories without an ignored
name. -/
theorem mem_listing_iff {node : Node} (hp : node.isProper = true) {place : Place} {names : List String} :
    names ∈ node.listing ignored linksToFile place ↔
      names ≠ [] ∧ (∀ name ∈ names.dropLast, name ∉ ignored) ∧ ∃ leaf, node.get? names = some leaf ∧
        (leaf.isFile = true ∨ leaf.isLink = true ∧ linksToFile (place ++ names) = true) := by
  induction node using Node.induction generalizing place names with
  | file | locked | link =>
    cases names with
    | nil => simp [listing]
    | cons => simp [listing, get?]
  | dir entries ih =>
    obtain ⟨hnames, hentries⟩ := (isProper_dir entries).1 hp
    rw [mem_listing_dir]
    constructor
    · rintro (⟨name, node, hmem, hitem, rfl⟩ | ⟨name, node, rest, hmem, hname, hrest, rfl⟩)
      · have hlookup := (Association.lookup_eq_some_iff_mem hnames).2 hmem
        exact ⟨by simp, by simp, node, get?_cons_eq_some.2 ⟨_, _, rfl, hlookup, rfl⟩, item_eq_file.1 hitem⟩
      · have hlookup := (Association.lookup_eq_some_iff_mem hnames).2 hmem
        obtain ⟨hne, hdirs, leaf, hleaf, hfile⟩ := (ih _ hmem (hentries _ hmem).2).1 hrest
        rw [List.append_assoc] at hfile
        refine ⟨by simp, ?_, leaf, get?_cons_eq_some.2 ⟨_, _, rfl, hlookup, hleaf⟩, hfile⟩
        rw [List.dropLast_cons_of_ne_nil hne]
        simpa using ⟨hname, hdirs⟩
    · rintro ⟨hne, hdirs, leaf, hleaf, hfile⟩
      obtain ⟨name, rest, rfl⟩ := List.exists_cons_of_ne_nil hne
      obtain ⟨_, node, hsame, hlookup, hrest⟩ := get?_cons_eq_some.1 hleaf
      cases hsame
      have hmem := (Association.lookup_eq_some_iff_mem hnames).1 hlookup
      cases rest with
      | nil =>
        rw [get?] at hrest
        cases hrest
        exact .inl ⟨name, leaf, hmem, item_eq_file.2 hfile, rfl⟩
      | cons next rest =>
        rw [List.dropLast_cons_of_ne_nil (List.cons_ne_nil _ _)] at hdirs
        obtain ⟨hname, hdirs⟩ := List.forall_mem_cons.1 hdirs
        refine .inr ⟨name, node, next :: rest, hmem, hname, (ih _ hmem (hentries _ hmem).2).2 ?_, rfl⟩
        exact ⟨List.cons_ne_nil _ _, hdirs, leaf, hrest, by rwa [List.append_assoc]⟩

/-! ## The order of entries -/

/-- A tree is another one with the entries of some directories in another order. -/
inductive Rearranged : Node → Node → Prop
  | refl (node : Node) : Rearranged node node
  | order {entries entries' : List (String × Node)} (h : entries.Perm entries') :
      Rearranged (.dir entries) (.dir entries')
  | entry (before after : List (String × Node)) (name : String) {node node' : Node} (h : Rearranged node node') :
      Rearranged (.dir (before ++ (name, node) :: after)) (.dir (before ++ (name, node') :: after))
  | trans {a b c : Node} (h : Rearranged a b) (h' : Rearranged b c) : Rearranged a c

theorem keeps_dir {entries entries' : List (String × Node)} (hnames : (entries.map (·.1)).Nodup)
    (hnames' : (entries'.map (·.1)).Nodup)
    (h : ∀ e ∈ entries, ∃ node', (e.1, node') ∈ entries' ∧ Keeps e.2 node') : Keeps (.dir entries) (.dir entries') := by
  intro place m hm
  cases place with
  | nil =>
    rw [get?] at hm
    cases hm
    exact ⟨_, rfl, rfl⟩
  | cons first rest =>
    obtain ⟨_, node, hsame, hlookup, hrest⟩ := get?_cons_eq_some.1 hm
    cases hsame
    obtain ⟨node', hmem', hkeeps⟩ := h _ ((Association.lookup_eq_some_iff_mem hnames).1 hlookup)
    obtain ⟨m', hm', hbare⟩ := hkeeps rest m hrest
    have hlookup' := (Association.lookup_eq_some_iff_mem hnames').2 hmem'
    exact ⟨m', get?_cons_eq_some.2 ⟨_, _, rfl, hlookup', hm'⟩, hbare⟩

/-- A tree whose entries come in another order is proper too, and holds the same at each place. -/
theorem Rearranged.keeps {a b : Node} (h : Rearranged a b) (hp : a.isProper = true) :
    b.isProper = true ∧ Keeps a b ∧ Keeps b a := by
  induction h with
  | refl node => exact ⟨hp, .refl node, .refl node⟩
  | @order entries entries' h =>
    obtain ⟨hnames, hentries⟩ := (isProper_dir entries).1 hp
    have hnames' := (h.map (·.1)).nodup_iff.1 hnames
    refine ⟨(isProper_dir entries').2 ⟨hnames', fun e he => hentries e (h.mem_iff.2 he)⟩, ?_, ?_⟩
    · exact keeps_dir hnames hnames' fun e he => ⟨e.2, h.mem_iff.1 he, .refl _⟩
    · exact keeps_dir hnames' hnames fun e he => ⟨e.2, h.mem_iff.2 he, .refl _⟩
  | @entry before after name node node' h ih =>
    obtain ⟨hnames, hentries⟩ := (isProper_dir _).1 hp
    obtain ⟨hname, hnode⟩ := hentries (name, node) (by simp)
    obtain ⟨hnode', hkeeps, hkeeps'⟩ := ih hnode
    have hnames' : ((before ++ (name, node') :: after).map (·.1)).Nodup := by simpa using hnames
    -- Every entry but the one is the same on both sides.
    have hother : ∀ {x y : Node}, Keeps x y → ∀ e ∈ before ++ (name, x) :: after,
        ∃ m, (e.1, m) ∈ before ++ (name, y) :: after ∧ Keeps e.2 m := by
      intro x y hxy e he
      rcases List.mem_append.1 he with he | he
      · exact ⟨e.2, List.mem_append_left _ he, .refl _⟩
      · rcases List.mem_cons.1 he with rfl | he
        · exact ⟨y, by simp, hxy⟩
        · exact ⟨e.2, List.mem_append_right _ (List.mem_cons_of_mem _ he), .refl _⟩
    refine ⟨(isProper_dir _).2 ⟨hnames', fun e he => ?_⟩, keeps_dir hnames hnames' (hother hkeeps),
      keeps_dir hnames' hnames (hother hkeeps')⟩
    rcases List.mem_append.1 he with he | he
    · exact hentries e (List.mem_append_left _ he)
    · rcases List.mem_cons.1 he with rfl | he
      · exact ⟨hname, hnode'⟩
      · exact hentries e (List.mem_append_right _ (List.mem_cons_of_mem _ he))
  | trans h h' ih ih' =>
    obtain ⟨hb, hkeeps, hback⟩ := ih hp
    obtain ⟨hc, hkeeps', hback'⟩ := ih' hb
    exact ⟨hc, hkeeps.trans hkeeps', hback'.trans hback⟩

end Node

/-! ## Visible files of a disk -/

namespace Disk

/-- Some names below the root of a tree are visible: one comes through directories, none of which has an ignored name,
to a file, or to a link by which the path leads to a file. -/
def Visible (d : Disk) (ignored : List String) (root : Path) (names : List String) : Prop :=
  names ≠ [] ∧ ∃ place, d.Reaches root place ∧
    (∀ above name, above ++ [name] <+: names.dropLast →
      name ∉ ignored ∧ ∃ entries, d.root.get? (place ++ above ++ [name]) = some (.dir entries)) ∧
    ∃ leaf, d.root.get? (place ++ names) = some leaf ∧
      (leaf.isFile = true ∨ leaf.isLink = true ∧ d.isFile ⟨root.root, root.names ++ names⟩ = true)

variable {d d' : Disk} {ignored : List String} {root : Path} {filter : FileFilter} {names : List String} {p : Path}

theorem isFile_iff :
    d.isFile p = true ↔ ∃ place node, d.Reaches p place ∧ d.root.get? place = some node ∧ node.isFile = true := by
  constructor
  · intro h
    obtain ⟨node, hfind, hfile⟩ := (Option.any_eq_true ..).1 h
    obtain ⟨place, hlocate⟩ := locate_of_find? hfind
    obtain ⟨n, hn, hleads, hnode⟩ := leads_of_locate hlocate
    exact ⟨place, node, ⟨n, hn, hleads⟩, hnode, hfile⟩
  · rintro ⟨place, node, hreach, hnode, hfile⟩
    rw [isFile, find?, hreach.locate_self hnode]
    exact hfile

theorem dir_of_get? {node leaf : Node} {above below : Place} (h : node.get? (above ++ below) = some leaf)
    (hne : below ≠ []) : ∃ entries, node.get? above = some (.dir entries) := by
  rw [Node.get?_append] at h
  obtain ⟨here, hhere, hbelow⟩ := Option.bind_eq_some_iff.1 h
  obtain ⟨name, rest, rfl⟩ := List.exists_cons_of_ne_nil hne
  obtain ⟨entries, -, rfl, -⟩ := Node.get?_cons_eq_some.1 hbelow
  exact ⟨entries, hhere⟩

/-- What is visible without the directories of some names: what is visible with them, unless it is behind one. -/
theorem visible_iff :
    d.Visible ignored root names ↔ d.Visible [] root names ∧ ∀ name ∈ names.dropLast, name ∉ ignored := by
  constructor
  · rintro ⟨hne, place, hreach, hdirs, hleaf⟩
    refine ⟨⟨hne, place, hreach, fun above name h => ?_, hleaf⟩, fun name hname => ?_⟩
    · exact ⟨List.not_mem_nil, (hdirs above name h).2⟩
    · obtain ⟨above, below, hsplit⟩ := List.append_of_mem hname
      exact (hdirs above name ⟨below, by rw [hsplit]; simp⟩).1
  · rintro ⟨⟨hne, place, hreach, hdirs, hleaf⟩, hnames⟩
    refine ⟨hne, place, hreach, fun above name h => ⟨hnames name (h.subset ?_), (hdirs above name h).2⟩, hleaf⟩
    exact List.mem_append_right _ (List.mem_singleton_self name)

/-- A listing of a proper disk holds exactly what is visible. -/
theorem mem_listing_iff (hp : d.root.isProper = true) :
    names ∈ d.listing ignored root ↔ d.Visible ignored root names := by
  constructor
  · intro h
    unfold listing at h
    split at h
    · next place node hlocate =>
      obtain ⟨n, hn, hleads, hnode⟩ := leads_of_locate hlocate
      obtain ⟨hne, hdirs, leaf, hleaf, hfile⟩ := (Node.mem_listing_iff (Node.isProper_of_get? hp hnode).1).1 h
      have hget : ∀ below, d.root.get? (place ++ below) = node.get? below := fun below => by
        rw [Node.get?_append, hnode, Option.bind_some]
      refine ⟨hne, place, ⟨n, hn, hleads⟩, ?_, leaf, (hget names).trans hleaf, hfile⟩
      rintro above name ⟨rest, hrest⟩
      refine ⟨hdirs name (by rw [← hrest]; simp), ?_⟩
      have hsplit : names = (above ++ [name]) ++ (rest ++ [names.getLast hne]) := by
        rw [← List.append_assoc, hrest, List.dropLast_concat_getLast]
      rw [List.append_assoc, hget]
      rw [hsplit] at hleaf
      exact dir_of_get? hleaf (by simp)
    · cases h
  · rintro ⟨hne, place, hreach, hdirs, leaf, hleaf, hfile⟩
    obtain ⟨entries, here⟩ := dir_of_get? hleaf hne
    have hproper := (Node.isProper_of_get? hp here).1
    rw [Node.get?_append, here, Option.bind_some] at hleaf
    rw [listing, hreach.locate_self here]
    refine (Node.mem_listing_iff hproper).2 ⟨hne, fun name hname => ?_, leaf, hleaf, hfile⟩
    obtain ⟨above, below, hsplit⟩ := List.append_of_mem hname
    exact (hdirs above name ⟨below, by rw [hsplit]; simp⟩).1

/-- What is visible on a disk is visible on one that has grown. -/
theorem Visible.mono (hgrows : Grows d d') (h : d.Visible ignored root names) : d'.Visible ignored root names := by
  obtain ⟨hne, place, hreach, hdirs, leaf, hleaf, hfile⟩ := h
  refine ⟨hne, place, hreach.mono hgrows, fun above name hprefix => ?_, ?_⟩
  · obtain ⟨hname, entries, here⟩ := hdirs above name hprefix
    exact ⟨hname, hgrows.dir here⟩
  · obtain ⟨leaf', hleaf', hbare⟩ := hgrows.keeps _ leaf hleaf
    refine ⟨leaf', hleaf', ?_⟩
    rw [Node.isFile_of_bare hbare, Node.isLink_of_bare hbare]
    refine hfile.imp_right fun ⟨hlink, hfile⟩ => ⟨hlink, isFile_iff.2 ?_⟩
    obtain ⟨dest, node, hdest, hnode, hkind⟩ := isFile_iff.1 hfile
    obtain ⟨node', hnode', hsame⟩ := hgrows.keeps _ _ hnode
    exact ⟨dest, node', hdest.mono hgrows, hnode', (Node.isFile_of_bare hsame).trans hkind⟩

theorem listing_congr (hp : d.root.isProper = true) (hp' : d'.root.isProper = true)
    (h : ∀ names, d'.Visible ignored root names ↔ d.Visible ignored root names) :
    d'.listing ignored root = d.listing ignored root := by
  refine (pairwise_listing hp').eq_of_mem_iff (pairwise_listing hp) fun names => ?_
  rw [mem_listing_iff hp', mem_listing_iff hp, h]

/-- A disk whose entries come in another order has grown, and would grow back. -/
theorem grows_of_rearranged (hp : d.root.isProper = true) (hcurrent : d'.current = d.current)
    (h : d.root.Rearranged d'.root) : d'.root.isProper = true ∧ Grows d d' ∧ Grows d' d := by
  obtain ⟨hp', hkeeps, hback⟩ := h.keeps hp
  have hlinks : ∀ {a b : Node}, a.Keeps b → ∀ place target, a.get? place = some (.link target) →
      b.get? place = some (.link target) := by
    intro a b hab place target hlink
    obtain ⟨node, hnode, hbare⟩ := hab place _ hlink
    rw [hnode, Node.eq_link_of_bare hbare]
  exact ⟨hp', ⟨hcurrent, hkeeps, hlinks hback⟩, ⟨hcurrent.symm, hback, hlinks hkeeps⟩⟩

/-! ## Candidates -/

theorem mem_candidates_iff (hp : d.root.isProper = true) {c : Candidate} :
    c ∈ d.candidates ignored root filter ↔ ∃ names, d.Visible ignored root names ∧
      filter.selects ("/".intercalate names) = true ∧
      c = ⟨⟨root.root, root.names ++ names⟩, "/".intercalate names⟩ := by
  simp only [candidates, List.mem_filter, List.mem_map, mem_listing_iff hp]
  constructor
  · rintro ⟨⟨names, hvisible, rfl⟩, hselects⟩
    exact ⟨names, hvisible, hselects, rfl⟩
  · rintro ⟨names, hvisible, hselects, rfl⟩
    exact ⟨⟨names, hvisible, rfl⟩, hselects⟩

/-- Whether a candidate comes before another, by their paths. -/
def Candidate.Precedes (a b : Candidate) : Prop := Place.Precedes a.path.names b.path.names

instance : Std.Asymm Candidate.Precedes := ⟨fun _ _ => Place.Precedes.asymm⟩

theorem pairwise_candidates (hp : d.root.isProper = true) :
    (d.candidates ignored root filter).Pairwise Candidate.Precedes := by
  unfold candidates
  exact (List.pairwise_map.2 ((pairwise_listing hp).imp (.append root.names))).filter _

/-- A tree with a directory that is not entered, a file of the same name as an ignored directory, a link to a file, a
link to a directory and a link that leads nowhere. -/
def scatteredTree : Disk := {
  root := .dir [("r", .dir [
    ("z.py", .file []), ("lost.py", .link "nowhere.py"), ("lib", .dir [("hidden.py", .file [])]),
    ("b", .dir [("z.py", .dir [("deep.py", .file [])]), ("y.py", .file [])]),
    ("a", .dir [("q.py", .link "../z.py"), ("again.py", .link "../b"), ("notes", .file [])])])] }

end Disk
end SourceAudit
