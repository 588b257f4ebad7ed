import SourceAudit.Proofs.Disk.Writing
import SourceAudit.Proofs.Path

/-!
# What writing changes

On a disk without links a path means the place that its names spell, double dots carried out. Making a directory or
storing a file there changes what is seen at that place and at no other. A directory that is made with the directories
above it changes the places of the paths above it as well, double dots included: of `new/../out` both `new` and `out`
are directories afterwards.

Results:
* `Node.face_get?_put`: putting a node with nothing below it changes what is seen at its place and nowhere else.
* `walk_of_followNames`: names that lead somewhere lead through directories to the place that they spell.
* `shows_ensureDir`, `shows_store`: what is seen after a directory was made or a file was stored.
* `paves_ensureDirs`: what is seen after a directory was made together with those above it.
* `Report.written_of_write`: what is seen after a report was written.
-/
namespace SourceAudit

/-! ## Trees -/

namespace Node

/-- What is seen of a node from outside: of a directory only that it is one. -/
def face : Node → Node
  | .dir _ => .dir []
  | node => node

/-- Nothing stands below a node. -/
def Childless (node : Node) : Prop := ∀ name rest, node.get? (name :: rest) = none

theorem childless_file (bytes : List UInt8) : (file bytes).Childless := fun _ _ => rfl

theorem childless_dir : (dir []).Childless := fun _ _ => rfl

/-- Putting a childless node in the place of nothing, or of a childless one, changes what is seen there only. -/
theorem face_get?_put {node new : Node} {directory : Place} {name : String} {entries : List (String × Node)}
    (hdir : node.get? directory = some (.dir entries)) (hnew : new.Childless)
    (hold : ∀ old, entries.lookup name = some old → old.Childless) (q : Place) :
    ((put new (directory ++ [name]) node).get? q).map face =
      if q = directory ++ [name] then some new.face else (node.get? q).map face := by
  induction directory generalizing node q with
  | nil =>
    rw [get?] at hdir
    cases hdir
    cases q with
    | nil => simp [put, get?, face]
    | cons first rest =>
      rw [List.nil_append, put, get?_set, put]
      by_cases hfirst : first = name
      · subst hfirst
        rw [if_pos rfl]
        cases rest with
        | nil => simp [get?]
        | cons second rest =>
          -- Below the new node there is nothing, as there was before.
          have hnone : (dir entries).get? (first :: second :: rest) = none := by
            rw [get?]
            cases hl : entries.lookup first with
            | none => rfl
            | some old => exact hold old hl second rest
          rw [hnew, hnone, if_neg (by simp)]
      · rw [if_neg hfirst, if_neg (by simp [hfirst])]
  | cons first directory ih =>
    obtain ⟨children, child, rfl, hl, hchild⟩ := get?_cons_eq_some.1 hdir
    cases q with
    | nil => simp [put, get?, face]
    | cons second rest =>
      rw [List.cons_append, put, get?_set, hl, Option.getD_some]
      by_cases hsecond : second = first
      · subst hsecond
        rw [if_pos rfl, ih hchild, get?, hl]
        simp
      · rw [if_neg hsecond, if_neg (by simp [hsecond])]

end Node

namespace Disk

variable {d d' : Disk} {place : Place}

def view (d : Disk) (place : Place) : Option Node := (d.root.get? place).map Node.face

theorem view_eq_dir : d.view place = some (.dir []) ↔ ∃ entries, d.root.get? place = some (.dir entries) := by
  unfold view
  cases d.root.get? place with
  | none => simp
  | some node => cases node <;> simp [Node.face]

theorem view_eq_leaf {leaf : Node} (h : leaf.isDir = false) :
    d.view place = some leaf ↔ d.root.get? place = some leaf := by
  unfold view
  cases d.root.get? place with
  | none => simp
  | some node =>
    cases node with
    | file | locked | link => rfl
    | dir entries =>
      rw [Option.map_some, Option.some_inj, Option.some_inj]
      exact iff_of_false (by rintro rfl; cases h) (by rintro rfl; cases h)

/-- Where something else than before is seen it is no link, so there are still no links. -/
theorem linkless_of_view (hd : d.root.Linkless)
    (h : ∀ q, d'.view q = d.view q ∨ ∀ target, d'.view q ≠ some (.link target)) : d'.root.Linkless := by
  intro q target hlink
  have hseen : d'.view q = some (.link target) := (view_eq_leaf rfl).2 hlink
  rcases h q with hsame | hother
  · exact hd q target ((view_eq_leaf rfl).1 (hsame ▸ hseen))
  · exact hother target hseen

/-! ## Where names lead -/

/-- The place that a path means, double dots carried out, if there are no links. -/
def placeOf (d : Disk) (p : Path) : Place := p.names.foldl Path.step (d.start p)

theorem placeOf_congr (h : d'.current = d.current) (p : Path) : d'.placeOf p = d.placeOf p := by
  simp only [placeOf, start, h]

theorem placeOf_child {name : String} (hname : name ≠ "..") (p : Path) :
    d.placeOf (p.child name) = d.placeOf p ++ [name] := by
  have hstep : ∀ place, Path.step place name = place ++ [name] := fun _ => if_neg hname
  rw [← hstep, placeOf, Path.child, List.foldl_append]
  rfl

/-- Names that lead somewhere lead through directories to the place that they spell. -/
theorem walk_of_followNames (hd : d.root.Linkless) {followLast : Bool}
    {expand : Place → String → List String → Except DiskFault Spot} {names : List String} {spot : Spot}
    (h : d.followNames followLast expand place names = .ok spot) :
    spot.Fits d (names.foldl Path.step place) ∧
      ∀ above, above <+: names → above ≠ names → d.view (above.foldl Path.step place) = some (.dir []) := by
  induction names generalizing place with
  | nil =>
    obtain ⟨node, here, rfl⟩ := followNames_nil_eq_ok.1 h
    exact ⟨⟨rfl, here⟩, fun above habove hne => absurd (List.prefix_nil.1 habove) hne⟩
  | cons name rest ih =>
    obtain ⟨entries, here⟩ := dir_of_followNames h
    have hway : (∀ above, above <+: rest → above ≠ rest →
          d.view (above.foldl Path.step (Path.step place name)) = some (.dir [])) →
        ∀ above, above <+: name :: rest → above ≠ name :: rest →
          d.view (above.foldl Path.step place) = some (.dir []) := by
      intro hrest above habove hne
      rcases List.prefix_cons_iff.1 habove with rfl | ⟨more, rfl, hmore⟩
      · exact view_eq_dir.2 ⟨entries, here⟩
      · exact hrest more hmore fun hmore => hne (by rw [hmore])
    by_cases hup : name = ".."
    · subst hup
      rw [followNames_up here] at h
      have hnext := ih h
      exact ⟨hnext.1, hway hnext.2⟩
    · have hstep : Path.step place name = place ++ [name] := if_neg hup
      rw [followNames_cons (fun below => hd (place ++ below)) here hup] at h
      rw [List.foldl_cons, hstep]
      rw [hstep] at hway
      split at h
      · have hnext := ih h
        exact ⟨hnext.1, hway hnext.2⟩
      · next hfree =>
        split at h
        · next hlast =>
          cases h
          obtain rfl := List.isEmpty_iff.1 hlast
          refine ⟨⟨rfl, entries, here, Option.not_isSome_iff_eq_none.1 hfree⟩, hway fun above habove hne => ?_⟩
          exact absurd (List.prefix_nil.1 habove) hne
        · cases h

theorem walk_of_locate (hd : d.root.Linkless) {followLast : Bool} {p : Path} {spot : Spot}
    (h : d.locate followLast p = .ok spot) :
    spot.Fits d (d.placeOf p) ∧
      ∀ above, above <+: p.names → above ≠ p.names → d.view (d.placeOf ⟨p.root, above⟩) = some (.dir []) :=
  walk_of_followNames hd h

/-! ## One step -/

/-- A disk after something was put at a place: it is seen there, and all else is as before. -/
structure Shows (d : Disk) (place : Place) (node : Node) (d' : Disk) : Prop where
  current : d'.current = d.current
  view : ∀ q, d'.view q = if q = place then some node else d.view q

theorem Shows.linkless {node : Node} (h : Shows d place node d') (hd : d.root.Linkless)
    (hnode : ∀ target, node ≠ .link target) : d'.root.Linkless := by
  refine linkless_of_view hd fun q => ?_
  rw [h.view q]
  split
  · exact .inr fun target hlink => hnode target (Option.some.inj hlink)
  · exact .inl rfl

theorem shows_put {directory : Place} {name : String} {entries : List (String × Node)} {new : Node}
    (hdir : d.root.get? directory = some (.dir entries)) (hnew : new.Childless)
    (hold : ∀ old, entries.lookup name = some old → old.Childless) :
    Shows d (directory ++ [name]) new.face (d.put (directory ++ [name]) new) :=
  ⟨rfl, Node.face_get?_put hdir hnew hold⟩

/-- A directory that is there, or was made, is at the place of its path, and those above it are there. -/
theorem shows_ensureDir (hd : d.root.Linkless) {p : Path} (h : d.ensureDir p = .ok d') :
    Shows d (d.placeOf p) (.dir []) d' ∧
      ∀ above, above <+: p.names → above ≠ p.names → d.view (d.placeOf ⟨p.root, above⟩) = some (.dir []) := by
  unfold ensureDir makeDir at h
  split at h
  · next made =>
    split at made
    · next directory name hlocate =>
      cases made
      cases h
      obtain ⟨⟨hplace, entries, here, hfree⟩, hway⟩ := walk_of_locate hd hlocate
      refine ⟨?_, hway⟩
      rw [hplace]
      exact shows_put here Node.childless_dir (by simp [hfree])
    · cases made
    · cases made
  · split at h
    · next hthere =>
      cases h
      obtain ⟨place, entries, hreaches, here⟩ := reaches_of_isDir hthere.2
      obtain ⟨⟨rfl, -⟩, hway⟩ := walk_of_locate hd (hreaches.locate_self here)
      refine ⟨⟨rfl, fun q => ?_⟩, hway⟩
      split
      · next hq => rw [hq, view_eq_dir.2 ⟨entries, here⟩]
      · rfl
    · cases h

/-- A file that was stored is at the place of its path, where no directory was. -/
theorem shows_store (hd : d.root.Linkless) {p : Path} {name : String} (hname : name ≠ "..") {bytes : List UInt8}
    (h : d.store (p.child name) bytes = .ok d') :
    Shows d (d.placeOf p ++ [name]) (.file bytes) d' ∧ d.view (d.placeOf p ++ [name]) ≠ some (.dir []) := by
  unfold store at h
  split at h
  · next directory free hlocate =>
    cases h
    obtain ⟨⟨hplace, entries, here, hfree⟩, -⟩ := walk_of_locate hd hlocate
    rw [← placeOf_child hname p, hplace]
    refine ⟨shows_put here (Node.childless_file bytes) (by simp [hfree]), ?_⟩
    rw [view, Node.get?_snoc free here, hfree]
    exact nofun
  · next place old hlocate =>
    cases h
    obtain ⟨⟨rfl, here⟩, -⟩ := walk_of_locate hd hlocate
    rw [placeOf_child hname p] at here ⊢
    refine ⟨?_, by simp [view, here, Node.face]⟩
    have habove := here
    rw [Node.get?_append] at habove
    obtain ⟨above, hplace, hlast⟩ := Option.bind_eq_some_iff.1 habove
    obtain ⟨entries, child, rfl, hl, hchild⟩ := Node.get?_cons_eq_some.1 hlast
    cases hchild
    refine shows_put hplace (Node.childless_file bytes) fun other hother => ?_
    rw [hl] at hother
    cases hother
    exact Node.childless_file old
  · cases h
  · cases h
  · cases h

/-! ## Directories with those above them -/

def OnWay (d : Disk) (p : Path) (q : Place) : Prop := ∃ above, above <+: p.names ∧ q = d.placeOf ⟨p.root, above⟩

/-- A disk after a directory was made together with those above it: they are seen there, and all else is as before. -/
structure Paves (d : Disk) (p : Path) (d' : Disk) : Prop where
  current : d'.current = d.current
  directories : ∀ q, d.OnWay p q → d'.view q = some (.dir [])
  elsewhere : ∀ q, ¬ d.OnWay p q → d'.view q = d.view q

namespace Paves

variable {p : Path}

theorem linkless (h : Paves d p d') (hd : d.root.Linkless) : d'.root.Linkless := by
  refine linkless_of_view hd fun q => ?_
  by_cases hq : d.OnWay p q
  · rw [h.directories q hq]
    exact .inr nofun
  · exact .inl (h.elsewhere q hq)

theorem trans {d'' : Disk} {root : String} {above names : List String} (h : Paves d ⟨root, above⟩ d')
    (habove : above <+: names) (h' : Paves d' ⟨root, names⟩ d'') : Paves d ⟨root, names⟩ d'' := by
  have hway : ∀ q, d'.OnWay ⟨root, names⟩ q ↔ d.OnWay ⟨root, names⟩ q := by
    intro q
    simp only [OnWay, placeOf_congr h.current]
  refine ⟨h'.current.trans h.current, fun q hq => h'.directories q ((hway q).2 hq), fun q hq => ?_⟩
  have hother : ¬ d.OnWay ⟨root, above⟩ q := by
    rintro ⟨names', hnames', rfl⟩
    exact hq ⟨names', hnames'.trans habove, rfl⟩
  rw [h'.elsewhere q (mt (hway q).1 hq), h.elsewhere q hother]

end Paves

theorem paves_ensureDir (hd : d.root.Linkless) {p : Path} (h : d.ensureDir p = .ok d') : Paves d p d' := by
  obtain ⟨hshows, hway⟩ := shows_ensureDir hd h
  refine ⟨hshows.current, ?_, fun q hq => ?_⟩
  · rintro q ⟨above, habove, rfl⟩
    rw [hshows.view]
    split
    · rfl
    · next hne =>
      refine hway above habove ?_
      rintro rfl
      exact hne rfl
  · rw [hshows.view, if_neg]
    rintro rfl
    exact hq ⟨p.names, List.prefix_rfl, rfl⟩

theorem paves_ensureDirsFrom (hd : d.root.Linkless) {root : String} {names : List String}
    (h : ensureDirsFrom root names d = (d', none)) : Paves d ⟨root, names.reverse⟩ d' := by
  induction names generalizing d' with
  | nil =>
    rw [ensureDirsFrom] at h
    split at h
    · next hmake =>
      cases h
      exact paves_ensureDir hd hmake
    · cases h
  | cons name above ih =>
    rw [ensureDirsFrom] at h
    split at h
    · next hmake =>
      cases h
      exact paves_ensureDir hd hmake
    · split at h
      · cases h
      · split at h
        · cases h
        · next d₁ hdirs =>
          split at h
          · next hmake =>
            cases h
            have habove := ih hdirs
            have hbegins : above.reverse <+: (name :: above).reverse := by simp
            exact habove.trans hbegins (paves_ensureDir (habove.linkless hd) hmake)
          · cases h

theorem paves_ensureDirs (hd : d.root.Linkless) {p : Path} (h : d.ensureDirs p = (d', none)) : Paves d p d' := by
  have hfrom := paves_ensureDirsFrom hd h
  rwa [List.reverse_reverse] at hfrom

end Disk

/-! ## Reports -/

namespace Report

open Disk

/-- A disk after a report was written into a directory: its two files are there, the directory and those above it are
directories, and all else is as before. -/
structure Written (r : Report) (d : Disk) (output : Path) (d' : Disk) : Prop where
  current : d'.current = d.current
  page : d'.view (d.placeOf output ++ ["report.html"]) = some (.file (bytesOf r.page))
  document : d'.view (d.placeOf output ++ ["report.json"]) = some (.file (bytesOf r.document))
  directories : ∀ q, d.OnWay output q → d'.view q = some (.dir [])
  elsewhere : ∀ q, ¬ d.OnWay output q → q ≠ d.placeOf output ++ ["report.html"] →
    q ≠ d.placeOf output ++ ["report.json"] → d'.view q = d.view q

theorem written_of_write {r : Report} {d d' : Disk} (hd : d.root.Linkless) {root : Path} {directory : String}
    {files : Files} (h : r.write d root directory = (d', .ok files)) :
    r.Written d (root.join (.ofString directory)) d' := by
  obtain ⟨d₁, d₂, hdirs, hpage, hdocument, -⟩ := write_eq_ok h
  have hmade := paves_ensureDirs hd hdirs
  have hd₁ := hmade.linkless hd
  obtain ⟨hpaged, hnodir⟩ := shows_store hd₁ (by decide) hpage
  have hd₂ := hpaged.linkless hd₁ nofun
  obtain ⟨hwritten, hnodir'⟩ := shows_store hd₂ (by decide) hdocument
  rw [placeOf_congr hmade.current] at hpaged hnodir
  rw [placeOf_congr (hpaged.current.trans hmade.current)] at hwritten hnodir'
  constructor
  case current => exact hwritten.current.trans (hpaged.current.trans hmade.current)
  case page => rw [hwritten.view, if_neg (by simp), hpaged.view, if_pos rfl]
  case document => rw [hwritten.view, if_pos rfl]
  case directories =>
    intro q hq
    have hseen := hmade.directories q hq
    have hother : q ≠ d.placeOf (root.join (.ofString directory)) ++ ["report.html"] := by
      rintro rfl
      exact hnodir hseen
    have hseen' : d₂.view q = some (.dir []) := by rw [hpaged.view, if_neg hother, hseen]
    have hother' : q ≠ d.placeOf (root.join (.ofString directory)) ++ ["report.json"] := by
      rintro rfl
      exact hnodir' hseen'
    rw [hwritten.view, if_neg hother', hseen']
  case elsewhere =>
    intro q hq hpage hdocument
    rw [hwritten.view, if_neg hdocument, hpaged.view, if_neg hpage, hmade.elsewhere q hq]

end Report
end SourceAudit
