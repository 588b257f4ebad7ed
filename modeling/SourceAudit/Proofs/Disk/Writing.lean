import SourceAudit.Proofs.Association
import SourceAudit.Proofs.Disk.Growth
import SourceAudit.Report.Files

/-!
# Writing below a directory

Directories are made and files are stored below a directory that a path leads to, all under one of its names. This
leaves everything else in the directory as it is, takes nothing away, and turns no directory into a file. Doing it once
more changes nothing.

Results:
* `touches_put`: putting a node below a directory touches one name of it.
* `ensureDirsFrom_touches`, `store_writes`: so do making directories and storing files.
* `Report.touches_write`: so does writing a report.
* `Report.write_again`: a report that is written again where it was written leaves the disk as it is.
-/
namespace SourceAudit

/-! ## Trees -/

namespace Node

theorem isDir_of_get? {node m : Node} {place : Place} (h : node.get? place = some m) (hm : m.isDir = true) :
    node.isDir = true := by
  cases place with
  | nil =>
    rw [get?] at h
    rw [Option.some.inj h, hm]
  | cons name rest =>
    obtain ⟨entries, child, rfl, -⟩ := get?_cons_eq_some.1 h
    rfl

theorem isDir_put {node : Node} (h : node.isDir = true) (new : Node) {place : Place} (hne : place ≠ []) :
    (put new place node).isDir = true := by
  obtain ⟨name, rest, rfl⟩ := List.exists_cons_of_ne_nil hne
  cases node with
  | dir entries => rfl
  | file | locked | link => cases h

variable {node m m' new : Node} {place : Place}

theorem put_append (h : node.get? place = some m) (new : Node) (rest : Place) :
    put new (place ++ rest) node = put (put new rest m) place node := by
  induction place generalizing node with
  | nil =>
    rw [get?] at h
    cases h
    rfl
  | cons name place ih =>
    obtain ⟨entries, child, rfl, hl, hchild⟩ := get?_cons_eq_some.1 h
    simp only [List.cons_append, put, hl, Option.getD_some, ih hchild]

theorem put_of_get? (h : node.get? place = some m) : put m place node = node := by
  induction place generalizing node with
  | nil =>
    rw [get?] at h
    exact (Option.some.inj h).symm
  | cons name place ih =>
    obtain ⟨entries, child, rfl, hl, hchild⟩ := get?_cons_eq_some.1 h
    rw [put, hl, Option.getD_some, ih hchild, Association.set_of_lookup hl]

theorem get?_put (h : node.get? place = some m) (new : Node) (rest : Place) :
    (put new place node).get? (place ++ rest) = new.get? rest := by
  induction place generalizing node with
  | nil => rfl
  | cons name place ih =>
    obtain ⟨entries, child, rfl, hl, hchild⟩ := get?_cons_eq_some.1 h
    rw [List.cons_append, put, get?, Association.lookup_set, if_pos rfl, hl]
    exact ih hchild

theorem get?_set (name : String) (new : Node) (entries : List (String × Node)) (first : String) (rest : Place) :
    (dir (Association.set name new entries)).get? (first :: rest) =
      if first = name then new.get? rest else (dir entries).get? (first :: rest) := by
  rw [get?, Association.lookup_set]
  by_cases h : first = name
  · simp only [if_pos h]
  · simp only [if_neg h]
    rw [get?]

theorem get?_link_of_put (hnew : new.Linkless) {place' : Place} {target : String}
    (h : (put new place node).get? place' = some (.link target)) : node.get? place' = some (.link target) := by
  induction place generalizing node place' with
  | nil => exact absurd h (hnew place' target)
  | cons name place ih =>
    cases node with
    | file | locked | link => exact h
    | dir entries =>
      cases place' with
      | nil => cases h
      | cons first rest =>
        rw [put, get?_set] at h
        split at h
        · next hfirst =>
          subst hfirst
          have hchild := ih h
          cases hl : entries.lookup first with
          | some child =>
            rw [hl] at hchild
            exact get?_cons_eq_some.2 ⟨entries, child, rfl, hl, hchild⟩
          | none =>
            rw [hl] at hchild
            exact absurd hchild (linkless_of_isLinkless rfl rest target)
        · exact h

theorem keeps_set {entries : List (String × Node)} {name : String}
    (h : ∀ old, entries.lookup name = some old → Keeps old new) :
    Keeps (.dir entries) (.dir (Association.set name new entries)) := by
  intro place m hm
  cases place with
  | nil =>
    rw [get?] at hm
    cases hm
    exact ⟨_, rfl, rfl⟩
  | cons first rest =>
    rw [get?_set]
    by_cases hfirst : first = name
    · subst hfirst
      rw [if_pos rfl]
      rw [get?] at hm
      cases hl : entries.lookup first with
      | none => rw [hl] at hm; cases hm
      | some old =>
        rw [hl] at hm
        exact h old hl rest m hm
    · rw [if_neg hfirst]
      exact ⟨m, hm, rfl⟩

theorem Keeps.put (h : node.get? place = some m) (hm : Keeps m m') : Keeps node (put m' place node) := by
  induction place generalizing node with
  | nil =>
    rw [get?] at h
    cases h
    exact hm
  | cons name place ih =>
    obtain ⟨entries, child, rfl, hl, hchild⟩ := get?_cons_eq_some.1 h
    rw [Node.put, hl, Option.getD_some]
    refine keeps_set fun old hold => ?_
    rw [hl] at hold
    cases hold
    exact ih hchild

/-- The entries of a directory differ at most under one name, where a directory stands now, and stood before if
anything did. -/
def Differ (name : String) (entries entries' : List (String × Node)) : Prop :=
  entries' = entries ∨ ∃ new : Node, new.isDir = true ∧ (∀ old, entries.lookup name = some old → old.isDir = true) ∧
    entries' = Association.set name new entries

theorem Differ.trans {name : String} {a b c : List (String × Node)} (h : Differ name a b) (h' : Differ name b c) :
    Differ name a c := by
  rcases h with rfl | ⟨new, hnew, hold, rfl⟩
  · exact h'
  · rcases h' with rfl | ⟨new', hnew', -, rfl⟩
    · exact .inr ⟨new, hnew, hold, rfl⟩
    · exact .inr ⟨new', hnew', hold, Association.set_set name new new' a⟩

end Node

/-! ## Disks -/

namespace Disk

/-- A disk grows, in the directory at a place under one name at most. -/
structure Touches (place : Place) (name : String) (d d' : Disk) : Prop extends Grows d d' where
  entries : ∀ entries, d.root.get? place = some (.dir entries) →
    ∃ entries', d'.root.get? place = some (.dir entries') ∧ Node.Differ name entries entries'

variable {d d' : Disk} {place : Place} {name : String} {names : List String} {root : Path}

theorem Touches.refl (place : Place) (name : String) (d : Disk) : Touches place name d d :=
  ⟨.refl d, fun entries h => ⟨entries, h, .inl rfl⟩⟩

theorem Touches.trans {d'' : Disk} (h : Touches place name d d') (h' : Touches place name d' d'') :
    Touches place name d d'' where
  toGrows := h.toGrows.trans h'.toGrows
  entries entries here := by
    obtain ⟨entries', here', hdiffer⟩ := h.entries entries here
    obtain ⟨entries'', here'', hdiffer'⟩ := h'.entries entries' here'
    exact ⟨entries'', here'', hdiffer.trans hdiffer'⟩

/-- Putting a node below a directory touches the name under which it goes. -/
theorem touches_put {q : Place} {last : String} {below : List String} {children : List (String × Node)} {new : Node}
    (hq : d.root.get? q = some (.dir children)) (hplace : place ++ name :: below = q ++ [last]) (hnew : new.Linkless)
    (hold : ∀ old, children.lookup last = some old → old.Keeps new)
    (htop : below = [] → new.isDir = true ∧ children.lookup last = none) :
    Touches place name d (d.put (q ++ [last]) new) where
  current := rfl
  links _ _ := Node.get?_link_of_put hnew
  keeps := by
    change Node.Keeps d.root (Node.put new (q ++ [last]) d.root)
    rw [Node.put_append hq]
    exact Node.Keeps.put hq (Node.keeps_set hold)
  entries entries here := by
    let inner := Node.put new below ((entries.lookup name).getD (.dir []))
    refine ⟨Association.set name inner entries, ?_, .inr ⟨inner, ?_⟩⟩
    · change (Node.put new (q ++ [last]) d.root).get? place = _
      have hget := Node.get?_put here (Node.put new (name :: below) (.dir entries)) []
      rw [List.append_nil, Node.get?] at hget
      rw [← hplace, Node.put_append here]
      exact hget
    · -- Either the node itself goes under the name, or it goes into a directory that is there.
      cases hbelow : below.reverse with
      | nil =>
        obtain rfl : below = [] := by simpa using hbelow
        obtain ⟨rfl, hlast⟩ := List.append_inj' hplace rfl
        cases hlast
        obtain rfl : entries = children := by
          rw [here] at hq
          cases hq
          rfl
        obtain ⟨hdir, hfree⟩ := htop rfl
        exact ⟨hdir, by simp [hfree], rfl⟩
      | cons z above =>
        obtain rfl : below = above.reverse ++ [z] := by rw [← List.reverse_reverse below, hbelow, List.reverse_cons]
        obtain ⟨rfl, -⟩ : place ++ name :: above.reverse = q ∧ [z] = [last] :=
          List.append_inj' (by simpa using hplace) rfl
        rw [Node.get?_append, here, Option.bind_some] at hq
        obtain ⟨_, child, hentries, hchild, hchildren⟩ := Node.get?_cons_eq_some.1 hq
        cases hentries
        have hdir : child.isDir = true := Node.isDir_of_get? hchildren rfl
        refine ⟨?_, ?_, rfl⟩
        · simp only [inner, hchild, Option.getD_some]
          exact Node.isDir_put hdir new (by simp)
        · intro old hold
          rw [hchild] at hold
          cases hold
          exact hdir

/-! ## Making directories -/

theorem ensureDir_of_isDir {p : Path} (h : d.isDir p = true) : d.ensureDir p = .ok d := by
  obtain ⟨place, entries, ⟨n, hn, hleads⟩, here⟩ := reaches_of_isDir h
  obtain ⟨found, there, hlocate⟩ := hleads.taken hn here
  have hmake : d.makeDir p = .error ⟨.occupied, p⟩ := by
    rw [makeDir, locate, hlocate]
  rw [ensureDir, hmake]
  simp [h]

theorem ensureDirsFrom_of_isDir {top : String} {above : List String} (h : d.isDir ⟨top, above.reverse⟩ = true) :
    ensureDirsFrom top above d = (d, none) := by
  cases above with
  | nil =>
    have hmake : d.ensureDir ⟨top, []⟩ = .ok d := ensureDir_of_isDir h
    rw [ensureDirsFrom, hmake]
  | cons last above =>
    rw [ensureDirsFrom]
    simp only [ensureDir_of_isDir h]

theorem ensureDir_touches (hd : d.LinklessAt place) (h : d.Reaches root place) (hup : ".." ∉ name :: names)
    (hmake : d.ensureDir ⟨root.root, root.names ++ name :: names⟩ = .ok d') : Touches place name d d' := by
  unfold ensureDir makeDir at hmake
  cases hlocate : d.locate false ⟨root.root, root.names ++ name :: names⟩ with
  | error fault =>
    rw [hlocate] at hmake
    simp only at hmake
    split at hmake
    · cases hmake
      exact .refl place name d
    · cases hmake
  | ok spot =>
    rw [hlocate] at hmake
    have hfits := h.fits_of_locate hd hup (.inr (List.cons_ne_nil name names)) hlocate
    cases spot with
    | taken found node =>
      simp only at hmake
      split at hmake
      · cases hmake
        exact .refl place name d
      · cases hmake
    | free directory last =>
      cases hmake
      obtain ⟨hplace, children, hchildren, hfree⟩ := hfits
      refine touches_put hchildren hplace (Node.linkless_of_isLinkless rfl) (fun old hold => ?_) fun _ => ⟨rfl, hfree⟩
      rw [hfree] at hold
      cases hold

/-- Making a directory and those above it touches the first name below the one that is there. -/
theorem ensureDirsFrom_touches (hd : d.LinklessAt place) (h : d.Reaches root place) (hroot : d.isDir root = true)
    (hup : ".." ∉ names) (hfirst : ∀ first ∈ names.head?, first = name) :
    Touches place name d (ensureDirsFrom root.root (root.names ++ names).reverse d).1 := by
  induction names using List.reverseRecOn generalizing d with
  | nil =>
    rw [ensureDirsFrom_of_isDir (by simpa using hroot)]
    exact .refl place name d
  | append_singleton above last ih =>
    obtain ⟨hupAbove, hupLast⟩ : ".." ∉ above ∧ ".." ≠ last := by simpa using hup
    have hnames : ∃ rest, above ++ [last] = name :: rest := by
      cases above with
      | nil => exact ⟨[], by rw [List.nil_append, hfirst last rfl]⟩
      | cons first rest => exact ⟨rest ++ [last], by rw [List.cons_append, hfirst first rfl]⟩
    obtain ⟨rest, hrest⟩ := hnames
    have htouch : ∀ {d d' : Disk}, d.LinklessAt place → d.Reaches root place →
        d.ensureDir ⟨root.root, root.names ++ (above ++ [last])⟩ = .ok d' → Touches place name d d' := by
      intro d d' hd h hmake
      rw [hrest] at hup hmake
      exact ensureDir_touches hd h hup hmake
    have hpath : (last :: (root.names ++ above).reverse).reverse = root.names ++ (above ++ [last]) := by simp
    rw [← List.append_assoc, List.reverse_concat, ensureDirsFrom]
    simp only [hpath]
    cases hmake : d.ensureDir ⟨root.root, root.names ++ (above ++ [last])⟩ with
    | ok d' => exact htouch hd h hmake
    | error e =>
      simp only
      split
      · exact .refl place name d
      · -- The directories above come first, and then the directory itself.
        have hfirstAbove : ∀ first ∈ above.head?, first = name := by
          intro first hmem
          refine hfirst first ?_
          rw [List.head?_append, Option.mem_def.1 hmem]
          rfl
        have habove := ih hd h hroot hupAbove hfirstAbove
        cases hdirs : ensureDirsFrom root.root (root.names ++ above).reverse d with
        | mk d₁ fault =>
          rw [hdirs] at habove
          cases fault with
          | some e => exact habove
          | none =>
            simp only
            cases hmake' : d₁.ensureDir ⟨root.root, root.names ++ (above ++ [last])⟩ with
            | ok d₂ => exact habove.trans (htouch (habove.linklessAt hd) (h.mono habove.toGrows) hmake')
            | error e => exact habove

/-! ## Storing files -/

/-- Storing a file puts it into a directory that is there. -/
theorem store_writes (hd : d.LinklessAt place) (h : d.Reaches root place) {file : String} {bytes : List UInt8}
    (hup : ".." ∉ names) (hfile : ".." ≠ file)
    (hstore : d.store ⟨root.root, root.names ++ (names ++ [file])⟩ bytes = .ok d') :
    ∃ children, d.root.get? (place ++ names) = some (.dir children) ∧
      (∀ old, children.lookup file = some old → ∃ before, old = .file before) ∧
      d' = d.put (place ++ names ++ [file]) (.file bytes) := by
  have hup' : ".." ∉ names ++ [file] := by simpa using ⟨hup, hfile⟩
  unfold store at hstore
  cases hlocate : d.locate true ⟨root.root, root.names ++ (names ++ [file])⟩ with
  | error fault => rw [hlocate] at hstore; cases hstore
  | ok spot =>
    rw [hlocate] at hstore
    have hfits := h.fits_of_locate hd hup' (.inl rfl) hlocate
    rw [← List.append_assoc] at hfits
    cases spot with
    | free directory last =>
      cases hstore
      obtain ⟨hplace, children, hchildren, hfree⟩ := hfits
      obtain ⟨rfl, hlast⟩ := List.append_inj' hplace rfl
      cases hlast
      exact ⟨children, hchildren, by simp [hfree], rfl⟩
    | taken found node =>
      cases node with
      | locked | dir | link => cases hstore
      | file before =>
        cases hstore
        obtain ⟨rfl, hthere⟩ := hfits
        rw [Node.get?_append] at hthere
        obtain ⟨parent, hparent, hlast⟩ := Option.bind_eq_some_iff.1 hthere
        obtain ⟨children, child, rfl, hlookup, hchild⟩ := Node.get?_cons_eq_some.1 hlast
        refine ⟨children, hparent, fun old hold => ⟨before, ?_⟩, rfl⟩
        rw [hlookup] at hold
        cases hold
        rw [Node.get?] at hchild
        exact Option.some.inj hchild

theorem store_touches (hd : d.LinklessAt place) (h : d.Reaches root place) {file : String} {bytes : List UInt8}
    (hup : ".." ∉ name :: names) (hfile : ".." ≠ file)
    (hstore : d.store ⟨root.root, root.names ++ (name :: names ++ [file])⟩ bytes = .ok d') :
    Touches place name d d' := by
  obtain ⟨children, hchildren, hold, rfl⟩ := store_writes hd h hup hfile hstore
  have hplace : place ++ name :: (names ++ [file]) = place ++ name :: names ++ [file] := by simp
  refine touches_put hchildren hplace (Node.linkless_of_isLinkless rfl) (fun old hlookup => ?_) (by simp)
  obtain ⟨before, rfl⟩ := hold old hlookup
  intro below m hm
  cases below with
  | nil =>
    rw [Node.get?] at hm
    cases hm
    exact ⟨_, rfl, rfl⟩
  | cons first rest => cases hm

theorem get?_store (hd : d.LinklessAt place) (h : d.Reaches root place) {file : String} {bytes : List UInt8}
    (hup : ".." ∉ names) (hfile : ".." ≠ file)
    (hstore : d.store ⟨root.root, root.names ++ (names ++ [file])⟩ bytes = .ok d') (other : String) :
    d'.root.get? (place ++ names ++ [other]) =
      if other = file then some (.file bytes) else d.root.get? (place ++ names ++ [other]) := by
  obtain ⟨children, hchildren, -, rfl⟩ := store_writes hd h hup hfile hstore
  change (Node.put (.file bytes) (place ++ names ++ [file]) d.root).get? (place ++ names ++ [other]) = _
  rw [Node.put_append hchildren, Node.get?_put hchildren, Node.get?_append _ (place ++ names), hchildren]
  exact Node.get?_set file (.file bytes) children other []

theorem store_of_get? (hd : d.LinklessAt place) (h : d.Reaches root place) {bytes : List UInt8} (hup : ".." ∉ names)
    (hfile : d.root.get? (place ++ names) = some (.file bytes)) :
    d.store ⟨root.root, root.names ++ names⟩ bytes = .ok d := by
  have hput : d.put (place ++ names) (.file bytes) = d := by
    rw [put, Node.put_of_get? hfile]
  rw [store, h.locate_of_get? hd hup hfile]
  simp only [hput]

end Disk

/-! ## Writing reports -/

namespace Report

open Disk

variable {r : Report} {d d' : Disk} {root : Path} {place : Place} {directory : String} {files : Files} {first : String}
  {rest : List String}

theorem join_eq (hrel : (Path.ofString directory).isAbsolute = false) (root : Path) :
    root.join (.ofString directory) = ⟨root.root, root.names ++ (Path.ofString directory).names⟩ := by
  rw [Path.join, hrel]
  rfl

theorem filesIn_eq (hrel : (Path.ofString directory).isAbsolute = false) (root : Path) :
    filesIn root directory =
      ⟨⟨root.root, root.names ++ ((Path.ofString directory).names ++ ["report.html"])⟩,
        ⟨root.root, root.names ++ ((Path.ofString directory).names ++ ["report.json"])⟩⟩ := by
  simp only [filesIn, join_eq hrel, Path.child, List.append_assoc]

theorem write_eq_ok (h : r.write d root directory = (d', .ok files)) :
    ∃ d₁ d₂, d.ensureDirs (root.join (.ofString directory)) = (d₁, none) ∧
      d₁.store (filesIn root directory).page (bytesOf r.page) = .ok d₂ ∧
      d₂.store (filesIn root directory).document (bytesOf r.document) = .ok d' ∧ files = filesIn root directory := by
  unfold write at h
  cases hdirs : d.ensureDirs (root.join (.ofString directory)) with
  | mk d₁ fault =>
    cases fault with
    | some e => simp [hdirs] at h
    | none =>
      simp only [hdirs] at h
      cases hpage : d₁.store (filesIn root directory).page (bytesOf r.page) with
      | error e => simp [hpage] at h
      | ok d₂ =>
        simp only [hpage] at h
        cases hdocument : d₂.store (filesIn root directory).document (bytesOf r.document) with
        | error e => simp [hdocument] at h
        | ok d₃ =>
          simp only [hdocument, Prod.mk.injEq, Except.ok.injEq] at h
          obtain ⟨rfl, rfl⟩ := h
          exact ⟨d₁, d₂, rfl, hpage, hdocument, rfl⟩

/-- Writing a report touches the first name of its directory, and leaves both files there. -/
theorem touches_write (hd : d.LinklessAt place) (h : d.Reaches root place) (hroot : d.isDir root = true)
    (hrel : (Path.ofString directory).isAbsolute = false) (hnames : (Path.ofString directory).names = first :: rest)
    (hup : ".." ∉ first :: rest) (hwrite : r.write d root directory = (d', .ok files)) :
    Touches place first d d' ∧
      d'.root.get? (place ++ first :: rest ++ ["report.html"]) = some (.file (bytesOf r.page)) ∧
      d'.root.get? (place ++ first :: rest ++ ["report.json"]) = some (.file (bytesOf r.document)) := by
  obtain ⟨d₁, d₂, hdirs, hpage, hdocument, -⟩ := write_eq_ok hwrite
  rw [filesIn_eq hrel, hnames] at hpage hdocument
  have hmade : Touches place first d d₁ := by
    rw [join_eq hrel, hnames, ensureDirs] at hdirs
    have hfirst : ∀ name ∈ (first :: rest).head?, name = first := by simp [eq_comm]
    have htouch := ensureDirsFrom_touches hd h hroot hup hfirst
    rwa [hdirs] at htouch
  have hd₁ := hmade.linklessAt hd
  have h₁ := h.mono hmade.toGrows
  have hpaged := store_touches hd₁ h₁ hup (by decide) hpage
  have hd₂ := hpaged.linklessAt hd₁
  have h₂ := h₁.mono hpaged.toGrows
  have hwritten := store_touches hd₂ h₂ hup (by decide) hdocument
  refine ⟨hmade.trans (hpaged.trans hwritten), ?_, ?_⟩
  · rw [get?_store hd₂ h₂ hup (by decide) hdocument, if_neg (by decide),
      get?_store hd₁ h₁ hup (by decide) hpage, if_pos rfl]
  · rw [get?_store hd₂ h₂ hup (by decide) hdocument, if_pos rfl]

/-- A report that is written again where it was written leaves the disk as it is. -/
theorem write_again (hd : d.LinklessAt place) (h : d.Reaches root place)
    (hrel : (Path.ofString directory).isAbsolute = false) (hup : ".." ∉ (Path.ofString directory).names)
    (hpage : d.root.get? (place ++ (Path.ofString directory).names ++ ["report.html"]) =
      some (.file (bytesOf r.page)))
    (hdocument : d.root.get? (place ++ (Path.ofString directory).names ++ ["report.json"]) =
      some (.file (bytesOf r.document))) :
    r.write d root directory = (d, .ok (filesIn root directory)) := by
  have hupFile : ∀ file, ".." ≠ file → ".." ∉ (Path.ofString directory).names ++ [file] := by
    intro file hfile
    simpa using ⟨hup, hfile⟩
  have hdir : d.isDir (root.join (.ofString directory)) = true := by
    rw [Node.get?_append] at hpage
    obtain ⟨parent, hparent, hlast⟩ := Option.bind_eq_some_iff.1 hpage
    obtain ⟨children, -, rfl, -⟩ := Node.get?_cons_eq_some.1 hlast
    rw [join_eq hrel, isDir, h.find?_below hd hup, hparent]
    rfl
  have hdirs : d.ensureDirs (root.join (.ofString directory)) = (d, none) :=
    ensureDirsFrom_of_isDir (by rwa [List.reverse_reverse])
  have hpaged : d.store (filesIn root directory).page (bytesOf r.page) = .ok d := by
    rw [filesIn_eq hrel]
    exact store_of_get? hd h (hupFile _ (by decide)) (by rwa [List.append_assoc] at hpage)
  have hdocumented : d.store (filesIn root directory).document (bytesOf r.document) = .ok d := by
    rw [filesIn_eq hrel]
    exact store_of_get? hd h (hupFile _ (by decide)) (by rwa [List.append_assoc] at hdocument)
  unfold write
  simp only [hdirs, hpaged, hdocumented]

end Report
end SourceAudit
