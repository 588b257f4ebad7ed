import SourceAudit.Proofs.Disk.Resolve

/-!
# Below a directory without links

Links may lead to a directory. If there are none in it, a path that goes on from there means what its names say: names
without double dots lead to the place that they spell.

Results:
* `Leads.followNames_append`: where a way leads to, further names are followed from there.
* `fits_of_followNames`: what names without double dots lead to stands, or can be put, at the place that they spell.
* `Reaches.find?_below`: what a path below a directory leads to is what stands at the place.
-/
namespace SourceAudit

namespace Node

mutual
/-- Whether a tree holds no link. -/
def isLinkless : Node → Bool
  | .file _ | .locked _ => true
  | .dir entries => areLinkless entries
  | .link _ => false

def entryIsLinkless : String × Node → Bool
  | (_, node) => node.isLinkless

/-- Whether entries are trees that hold no link. -/
def areLinkless : List (String × Node) → Bool
  | [] => true
  | entry :: rest => entryIsLinkless entry && areLinkless rest
end

theorem areLinkless_iff (entries : List (String × Node)) :
    areLinkless entries = true ↔ ∀ e ∈ entries, e.2.isLinkless = true := by
  induction entries with
  | nil => simp [areLinkless]
  | cons e rest ih =>
    obtain ⟨name, node⟩ := e
    simp [areLinkless, entryIsLinkless, ih]

/-- No link stands anywhere in a tree. -/
def Linkless (node : Node) : Prop := ∀ place target, node.get? place ≠ some (.link target)

theorem linkless_of_isLinkless {node : Node} (h : node.isLinkless = true) : node.Linkless := by
  intro place target hlink
  induction place generalizing node with
  | nil =>
    rw [get?] at hlink
    cases hlink
    cases h
  | cons name rest ih =>
    obtain ⟨entries, child, rfl, hl, hchild⟩ := get?_cons_eq_some.1 hlink
    obtain ⟨pre, post, rfl, -⟩ := List.lookup_eq_some_iff.1 hl
    exact ih ((areLinkless_iff _).1 h (name, child) (by simp)) hchild

end Node

/-- What a place holds as far as a spot tells: what stands there, or that nothing does and its directory is there. -/
def Spot.Fits (d : Disk) (place : Place) : Spot → Prop
  | .taken found node => found = place ∧ d.root.get? place = some node
  | .free directory name =>
    place = directory ++ [name] ∧ ∃ entries, d.root.get? directory = some (.dir entries) ∧ entries.lookup name = none

namespace Disk

/-- No link stands at a place or below it. -/
def LinklessAt (d : Disk) (place : Place) : Prop := ∀ below target, d.root.get? (place ++ below) ≠ some (.link target)

variable {d : Disk} {followLast : Bool} {expand : Place → String → List String → Except DiskFault Spot}
  {place : Place} {names : List String}

theorem linklessAt_iff {node : Node} (here : d.root.get? place = some node) : d.LinklessAt place ↔ node.Linkless := by
  simp only [LinklessAt, Node.Linkless, Node.get?_append, here, Option.bind_some]

theorem LinklessAt.child (hd : d.LinklessAt place) (name : String) : d.LinklessAt (place ++ [name]) := by
  intro below target
  simpa using hd (name :: below) target

theorem followNames_cons (hd : d.LinklessAt place) {entries : List (String × Node)} {name : String}
    {rest : List String} (here : d.root.get? place = some (.dir entries)) (hup : name ≠ "..") :
    d.followNames followLast expand place (name :: rest) =
      if (entries.lookup name).isSome then d.followNames followLast expand (place ++ [name]) rest
      else if rest.isEmpty then .ok (.free place name)
      else .error .notFound := by
  cases hfound : entries.lookup name with
  | none => exact followNames_missing here hup hfound
  | some node =>
    refine followNames_enter here hup hfound ?_
    rintro target rfl
    exact hd [name] target ((Node.get?_snoc name here).trans hfound)

/-- What names without double dots lead to stands, or can be put, at the place that they spell. -/
theorem fits_of_followNames (hd : d.LinklessAt place) (hup : ".." ∉ names) {spot : Spot}
    (h : d.followNames followLast expand place names = .ok spot) : spot.Fits d (place ++ names) := by
  induction names generalizing place with
  | nil =>
    obtain ⟨node, here, rfl⟩ := followNames_nil_eq_ok.1 h
    exact ⟨(List.append_nil place).symm, by rw [List.append_nil, here]⟩
  | cons name rest ih =>
    obtain ⟨hne, hrest⟩ : ".." ≠ name ∧ ".." ∉ rest := by simpa using hup
    obtain ⟨entries, here⟩ := dir_of_followNames h
    rw [followNames_cons hd here hne.symm] at h
    split at h
    · simpa using ih (hd.child name) hrest h
    · next hfree =>
      split at h
      · next hlast =>
        cases h
        rw [List.isEmpty_iff.1 hlast]
        exact ⟨rfl, entries, here, Option.not_isSome_iff_eq_none.1 hfree⟩
      · cases h

/-! ## Ways that go on -/

theorem followNames_suits {target : String} {dest : Place} {rest more : List String}
    (suits : d.Suits target more dest) :
    (do
      let spot ← d.followNames followLast expand dest rest
      if (more ++ rest).isEmpty then (endingOf target).accept spot else return spot) =
      d.followNames followLast expand dest rest := by
  cases hfound : d.followNames followLast expand dest rest with
  | error fault => rfl
  | ok spot =>
    change (if (more ++ rest).isEmpty then (endingOf target).accept spot else return spot) = _
    split
    · next hempty =>
      obtain ⟨hmore, rfl⟩ := List.append_eq_nil_iff.1 (List.isEmpty_iff.1 hempty)
      obtain ⟨node, here, rfl⟩ := followNames_nil_eq_ok.1 hfound
      refine Ending.accept_eq_taken.2 ⟨rfl, fun hending => ?_⟩
      obtain ⟨entries, hdir⟩ := suits hmore hending
      exact ⟨entries, Option.some.inj (here.symm.trans hdir)⟩
    · rfl

/-- Where a way leads to, further names are followed from there, with as many links less as there are on the way. -/
theorem Leads.followNames_append {n m : Nat} {dest : Place} {rest : List String} (h : Leads d n place names dest)
    (hn : n ≤ m) (hrest : followLast = true ∨ rest ≠ []) :
    d.followNames followLast (d.followLink followLast m) place (names ++ rest) =
      d.followNames followLast (d.followLink followLast (m - n)) dest rest := by
  induction h generalizing m with
  | done place => rfl
  | up here next ih =>
    rw [List.cons_append, followNames_up here]
    exact ih hn
  | enter here plain found solid next ih =>
    rw [List.cons_append, followNames_enter here plain found solid]
    exact ih hn
  | @link n place dest entries name target more here plain found next suits ih =>
    obtain ⟨m, rfl⟩ := Nat.exists_eq_add_of_le' hn
    have hlast : ¬((more ++ rest).isEmpty && !followLast) = true := by
      rcases hrest with rfl | hrest
      · simp
      · simp [hrest]
    rw [List.cons_append, followNames_link here plain found, if_neg hlast]
    rw [← Nat.add_assoc, followLink, ← List.append_assoc]
    have hnext := ih (Nat.le_add_left n m)
    rw [Nat.add_sub_cancel] at hnext
    rw [Nat.add_assoc, Nat.add_sub_cancel, hnext]
    exact followNames_suits suits

/-- Something stands at the end of a way, whether or not a link there is followed. -/
theorem Leads.taken {n m : Nat} {dest : Place} {node : Node} (h : Leads d n place names dest) (hn : n ≤ m)
    (hdest : d.root.get? dest = some node) :
    ∃ found there, d.followNames followLast (d.followLink followLast m) place names = .ok (.taken found there) := by
  cases followLast with
  | true =>
    have hfollow : d.followNames true (d.followLink true m) place (names ++ []) = _ :=
      h.followNames_append hn (.inl rfl)
    rw [List.append_nil, followNames, hdest] at hfollow
    exact ⟨dest, node, hfollow⟩
  | false =>
    induction h generalizing m with
    | done place => exact ⟨place, node, by rw [followNames, hdest]⟩
    | up here next ih =>
      rw [followNames_up here]
      exact ih hn hdest
    | enter here plain found solid next ih =>
      rw [followNames_enter here plain found solid]
      exact ih hn hdest
    | @link n place dest entries name target more here plain found next suits ih =>
      obtain ⟨m, rfl⟩ := Nat.exists_eq_add_of_le' hn
      rw [followNames_link here plain found]
      split
      · exact ⟨_, _, rfl⟩
      · next hmore =>
        obtain ⟨spot, there, hfollow⟩ := ih (Nat.le_add_left n m) hdest
        refine ⟨spot, there, ?_⟩
        rw [← Nat.add_assoc, followLink, hfollow]
        change (if more.isEmpty then _ else _) = _
        rw [if_neg (by simpa using hmore)]
        rfl

/-- A path leads to a place, through no more links than are followed. -/
def Reaches (d : Disk) (p : Path) (place : Place) : Prop := ∃ n ≤ maxLinks, Leads d n (d.start p) p.names place

namespace Reaches

variable {p : Path} {node : Node}

theorem locate (h : d.Reaches p place) (names : List String) (hnames : followLast = true ∨ names ≠ []) :
    ∃ m, d.locate followLast ⟨p.root, p.names ++ names⟩ =
      d.followNames followLast (d.followLink followLast m) place names := by
  obtain ⟨n, hn, hleads⟩ := h
  exact ⟨maxLinks - n, hleads.followNames_append hn hnames⟩

theorem locate_self (h : d.Reaches p place) (here : d.root.get? place = some node) :
    d.locate true p = .ok (.taken place node) := by
  obtain ⟨m, hlocate⟩ := h.locate [] (.inl rfl)
  rw [followNames, here, List.append_nil] at hlocate
  exact hlocate

theorem fits_of_locate (hd : d.LinklessAt place) (h : d.Reaches p place) (hup : ".." ∉ names)
    (hnames : followLast = true ∨ names ≠ []) {spot : Spot}
    (hlocate : d.locate followLast ⟨p.root, p.names ++ names⟩ = .ok spot) : spot.Fits d (place ++ names) := by
  obtain ⟨m, hfollow⟩ := h.locate names hnames
  exact fits_of_followNames hd hup (hfollow.symm.trans hlocate)

theorem locate_of_get? (hd : d.LinklessAt place) (h : d.Reaches p place) (hup : ".." ∉ names)
    (hnode : d.root.get? (place ++ names) = some node) :
    d.locate true ⟨p.root, p.names ++ names⟩ = .ok (.taken (place ++ names) node) := by
  obtain ⟨m, hfollow⟩ := h.locate names (.inl rfl)
  have hsolid : ∀ target, node ≠ .link target := by
    rintro target rfl
    exact hd names target hnode
  exact hfollow.trans (followNames_of_get? hup hsolid hnode)

/-- What a path below a place leads to is what stands there. -/
theorem find?_below (hd : d.LinklessAt place) (h : d.Reaches p place) (hup : ".." ∉ names) :
    d.find? ⟨p.root, p.names ++ names⟩ = d.root.get? (place ++ names) := by
  cases hnode : d.root.get? (place ++ names) with
  | some node => rw [find?, h.locate_of_get? hd hup hnode]
  | none =>
    unfold find?
    split
    · next hlocate =>
      have hfits := (h.fits_of_locate hd hup (.inl rfl) hlocate).2
      rw [hnode] at hfits
      cases hfits
    · rfl

end Reaches

theorem reaches_of_isDir {p : Path} (h : d.isDir p = true) :
    ∃ place entries, d.Reaches p place ∧ d.root.get? place = some (.dir entries) := by
  unfold isDir find? at h
  split at h
  · next place node hlocate =>
    obtain ⟨n, hn, hleads, hnode⟩ := leads_of_locate hlocate
    cases node with
    | dir entries => exact ⟨place, entries, ⟨n, hn, hleads⟩, hnode⟩
    | file | locked | link => cases h
  · cases h

end Disk
end SourceAudit
