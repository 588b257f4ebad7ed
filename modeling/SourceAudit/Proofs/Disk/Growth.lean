import SourceAudit.Proofs.Disk.Linkless

/-!
# Growing disks

A disk grows if things are added to it and files are written over, but no link is made and nothing is taken away or
turned into something else. Each step of a way can then be made as before, so every path that leads somewhere still
leads there, and one with too many links still has too many.

Resolving is another matter. Links that lead in circles by way of a missing directory resolve to a path that holds one
of them, since the circle cannot be followed; once the directory is there it can be, and the path is refused. Apart from
such circles a path resolves to a place that has no link in it, and then growing makes no difference.

Results:
* `Leads.mono`: a way still leads where it did.
* `Grows.locate_tooManyLinks`: a path with too many links still has too many.
* `Grows.resolve_eq`: if paths resolve to plain places, they still resolve to the same ones.
* `untangled_of_leads`: this is so if every link leads somewhere.
-/
namespace SourceAudit

namespace Node

/-- A node without its content: what can be told of it by following a path. -/
def bare : Node → Node
  | .file _ => .file []
  | .locked size => .locked size
  | .dir _ => .dir []
  | .link target => .link target

def isLink : Node → Bool
  | .link _ => true
  | _ => false

theorem eq_link_of_bare {node : Node} {target : String} (h : node.bare = .link target) : node = .link target := by
  cases node with
  | file | locked | dir => cases h
  | link other => exact h

theorem eq_dir_of_bare {node : Node} (h : node.bare = .dir []) : ∃ entries, node = .dir entries := by
  cases node with
  | file | locked | link => cases h
  | dir entries => exact ⟨entries, rfl⟩

theorem isFile_of_bare {node node' : Node} (h : node'.bare = node.bare) : node'.isFile = node.isFile := by
  cases node <;> cases node' <;> first | rfl | cases h

theorem isLink_of_bare {node node' : Node} (h : node'.bare = node.bare) : node'.isLink = node.isLink := by
  cases node <;> cases node' <;> first | rfl | cases h

/-- Whatever stands in a tree still stands there in another, but for the contents of files and directories. -/
def Keeps (node node' : Node) : Prop :=
  ∀ place m, node.get? place = some m → ∃ m', node'.get? place = some m' ∧ m'.bare = m.bare

theorem Keeps.refl (node : Node) : Keeps node node := fun _ m h => ⟨m, h, rfl⟩

theorem Keeps.trans {a b c : Node} (h : Keeps a b) (h' : Keeps b c) : Keeps a c := by
  intro place m hm
  obtain ⟨m', hm', hbare⟩ := h place m hm
  obtain ⟨m'', hm'', hbare'⟩ := h' place m' hm'
  exact ⟨m'', hm'', hbare'.trans hbare⟩

end Node

namespace Disk

/-- A change of a disk that takes nothing away and makes no link. -/
structure Grows (d d' : Disk) : Prop where
  current : d'.current = d.current
  keeps : d.root.Keeps d'.root
  links : ∀ place target, d'.root.get? place = some (.link target) → d.root.get? place = some (.link target)

variable {d d' : Disk} {place : Place} {names : List String} {p : Path}

theorem Grows.refl (d : Disk) : Grows d d := ⟨rfl, .refl _, fun _ _ => id⟩

theorem Grows.trans {d'' : Disk} (h : Grows d d') (h' : Grows d' d'') : Grows d d'' where
  current := h'.current.trans h.current
  keeps := h.keeps.trans h'.keeps
  links place target := h.links place target ∘ h'.links place target

namespace Grows

theorem start_eq (h : Grows d d') (p : Path) : d'.start p = d.start p := by
  rw [start, start, h.current]

theorem linklessAt (h : Grows d d') (hd : d.LinklessAt place) : d'.LinklessAt place :=
  fun below target hlink => hd below target (h.links _ target hlink)

theorem link_iff (h : Grows d d') (place : Place) (target : String) :
    d'.root.get? place = some (.link target) ↔ d.root.get? place = some (.link target) := by
  refine ⟨h.links place target, fun hlink => ?_⟩
  obtain ⟨node, hnode, hbare⟩ := h.keeps place _ hlink
  rw [hnode, Node.eq_link_of_bare hbare]

theorem dir (h : Grows d d') {entries : List (String × Node)} (here : d.root.get? place = some (.dir entries)) :
    ∃ entries', d'.root.get? place = some (.dir entries') := by
  obtain ⟨node, hnode, hbare⟩ := h.keeps place _ here
  obtain ⟨entries', rfl⟩ := Node.eq_dir_of_bare hbare
  exact ⟨entries', hnode⟩

theorem lookup (h : Grows d d') {entries entries' : List (String × Node)} {name : String} {node : Node}
    (here : d.root.get? place = some (.dir entries)) (here' : d'.root.get? place = some (.dir entries'))
    (found : entries.lookup name = some node) :
    ∃ node', entries'.lookup name = some node' ∧ node'.bare = node.bare := by
  obtain ⟨node', hnode', hbare⟩ := h.keeps (place ++ [name]) node ((Node.get?_snoc name here).trans found)
  exact ⟨node', (Node.get?_snoc name here').symm.trans hnode', hbare⟩

end Grows

/-! ## Following -/

/-- A way still leads where it did. -/
theorem Leads.mono {n : Nat} {dest : Place} (hgrows : Grows d d') (h : Leads d n place names dest) :
    Leads d' n place names dest := by
  induction h with
  | done place => exact .done place
  | up here next ih =>
    obtain ⟨entries', here'⟩ := hgrows.dir here
    exact .up here' ih
  | @enter n place dest entries name node rest here plain found solid next ih =>
    obtain ⟨entries', here'⟩ := hgrows.dir here
    obtain ⟨node', found', hbare⟩ := hgrows.lookup here here' found
    refine .enter here' plain found' ?_ ih
    rintro target rfl
    exact solid target (Node.eq_link_of_bare hbare.symm)
  | @link n place dest entries name target rest here plain found next suits ih =>
    obtain ⟨entries', here'⟩ := hgrows.dir here
    obtain ⟨node', found', hbare⟩ := hgrows.lookup here here' found
    rw [Node.eq_link_of_bare hbare] at found'
    refine .link here' plain found' ih fun hlast hending => ?_
    obtain ⟨_, hdest⟩ := suits hlast hending
    exact hgrows.dir hdest

theorem Reaches.mono (h : d.Reaches p place) (hgrows : Grows d d') : d'.Reaches p place := by
  obtain ⟨n, hn, hleads⟩ := h
  exact ⟨n, hn, hgrows.start_eq p ▸ hleads.mono hgrows⟩

/-- Names with too many links still have too many, if this is so for the targets of links. -/
theorem Grows.followNames_tooManyLinks (h : Grows d d')
    {expand expand' : Place → String → List String → Except DiskFault Spot}
    (hexpand : ∀ place target rest, expand place target rest = .error .tooManyLinks →
      expand' place target rest = .error .tooManyLinks)
    (hfollow : d.followNames true expand place names = .error .tooManyLinks) :
    d'.followNames true expand' place names = .error .tooManyLinks := by
  induction names generalizing place with
  | nil =>
    rw [followNames] at hfollow
    split at hfollow <;> cases hfollow
  | cons name rest ih =>
    by_cases hdir : ∃ entries, d.root.get? place = some (.dir entries)
    · obtain ⟨entries, here⟩ := hdir
      obtain ⟨entries', here'⟩ := h.dir here
      by_cases hup : name = ".."
      · subst hup
        rw [followNames_up here] at hfollow
        rw [followNames_up here']
        exact ih hfollow
      · cases found : entries.lookup name with
        | none =>
          rw [followNames_missing here hup found] at hfollow
          split at hfollow <;> cases hfollow
        | some child =>
          obtain ⟨child', found', hbare⟩ := h.lookup here here' found
          rcases child.link_or_solid with ⟨target, rfl⟩ | solid
          · rw [Node.eq_link_of_bare hbare] at found'
            rw [followNames_link here hup found, if_neg (by simp)] at hfollow
            rw [followNames_link here' hup found', if_neg (by simp)]
            exact hexpand _ _ _ hfollow
          · have solid' : ∀ target, child' ≠ .link target := by
              rintro target rfl
              exact solid target (Node.eq_link_of_bare hbare.symm)
            rw [followNames_enter here hup found solid] at hfollow
            rw [followNames_enter here' hup found' solid']
            exact ih hfollow
    · obtain ⟨fault, hfault, hfew⟩ := followNames_stuck (not_exists.1 hdir)
      rw [hfault] at hfollow
      exact absurd (Except.error.inj hfollow) hfew

theorem Ending.accept_ne_tooManyLinks (ending : Ending) (spot : Spot) :
    ending.accept spot ≠ .error .tooManyLinks := by
  cases ending <;> cases spot with
  | free => simp [accept]
  | taken place node => cases node <;> simp [accept]

theorem Grows.followLink_tooManyLinks (h : Grows d d') (links : Nat) :
    ∀ place target rest, d.followLink true links place target rest = .error .tooManyLinks →
      d'.followLink true links place target rest = .error .tooManyLinks := by
  induction links with
  | zero => exact fun _ _ _ _ => rfl
  | succ links ih =>
    intro place target rest hfollow
    rw [followLink] at hfollow ⊢
    cases hnames : d.followNames true (d.followLink true links) (linkStart place target)
        ((Path.ofString target).names ++ rest) with
    | error fault =>
      rw [hnames] at hfollow
      cases hfollow
      rw [h.followNames_tooManyLinks ih hnames]
      rfl
    | ok spot =>
      rw [hnames] at hfollow
      change (if rest.isEmpty then (endingOf target).accept spot else return spot) = _ at hfollow
      split at hfollow
      · exact absurd hfollow (Ending.accept_ne_tooManyLinks _ _)
      · cases hfollow

/-- A path with too many links still has too many. -/
theorem Grows.locate_tooManyLinks (h : Grows d d') (hlocate : d.locate true p = .error .tooManyLinks) :
    d'.locate true p = .error .tooManyLinks := by
  rw [locate, h.start_eq]
  exact h.followNames_tooManyLinks (h.followLink_tooManyLinks maxLinks) hlocate

/-! ## Resolving -/

theorem Grows.resolveNames_eq (h : Grows d d') (pending : List Place)
    (enter : Place → List Place → String → Except Stop Place) (place : Place) (steps : List (String × String)) :
    d'.resolveNames pending enter place steps = d.resolveNames pending enter place steps := by
  induction steps generalizing place with
  | nil => rfl
  | cons step rest ih =>
    obtain ⟨name, root⟩ := step
    rw [resolveNames, resolveNames]
    by_cases hlink : ∃ target, d.root.get? (place ++ [name]) = some (.link target)
    · obtain ⟨target, hlink⟩ := hlink
      simp only [hlink, (h.link_iff _ target).2 hlink, ih]
    · have hlink' : ¬∃ target, d'.root.get? (place ++ [name]) = some (.link target) := by
        simpa only [h.link_iff] using hlink
      split
      · exact ih _
      · simp only
        split
        · rfl
        · split
          · next target hget => exact absurd ⟨target, hget⟩ hlink'
          · split
            · next target hget => exact absurd ⟨target, hget⟩ hlink
            · exact ih _

theorem Grows.resolveLink_eq (h : Grows d d') (depth : Nat) : d'.resolveLink depth = d.resolveLink depth := by
  induction depth with
  | zero => rfl
  | succ depth ih =>
    funext place pending target
    rw [resolveLink, resolveLink, ih, h.resolveNames_eq]

theorem Grows.unlinked_eq (h : Grows d d') (p : Path) : d'.unlinked p = d.unlinked p := by
  rw [unlinked, h.resolveLink_eq, h.start_eq, h.resolveNames_eq, unlinked]

/-- What was reached when a link led back to itself is an absolute path, if this is so inside the targets of links. -/
theorem isAbsolute_of_resolveNames {pending : List Place} {enter : Place → List Place → String → Except Stop Place}
    (henter : ∀ place pending target reached, enter place pending target = .error (.loop reached) →
      reached.isAbsolute = true)
    {steps : List (String × String)} {reached : Path}
    (h : d.resolveNames pending enter place steps = .error (.loop reached)) : reached.isAbsolute = true := by
  induction steps generalizing place with
  | nil => cases h
  | cons step rest ih =>
    obtain ⟨name, root⟩ := step
    -- Whatever follows the loop begins at a root itself, or is put behind an absolute path.
    have hbehind : ∀ {p : Path}, p.isAbsolute = true →
        Stop.behind root rest (.loop p) = .loop reached → reached.isAbsolute = true := by
      intro p hp hbehind
      cases hbehind
      rw [Path.join]
      split
      · assumption
      · exact hp
    rw [resolveNames] at h
    split at h
    · exact ih h
    · simp only at h
      split at h
      · cases h
      · split at h
        · split at h
          · exact hbehind rfl (Except.error.inj h)
          · split at h
            · exact ih h
            · next stop hstop =>
              cases stop with
              | loop inner => exact hbehind (henter _ _ _ _ hstop) (Except.error.inj h)
              | fault why => cases h
        · exact ih h

theorem isAbsolute_of_resolveLink (depth : Nat) :
    ∀ place pending target reached, d.resolveLink depth place pending target = .error (.loop reached) →
      reached.isAbsolute = true := by
  induction depth with
  | zero => intro place pending target reached h; cases h
  | succ depth ih =>
    intro place pending target reached h
    exact isAbsolute_of_resolveNames ih h

theorem isAbsolute_of_unlinked {q : Path} (h : d.unlinked p = .ok q) : q.isAbsolute = true := by
  unfold unlinked at h
  split at h
  · cases h
    rfl
  · next hloop =>
    have habsolute := isAbsolute_of_resolveNames (isAbsolute_of_resolveLink maxLinkDepth) hloop
    cases h
    exact habsolute
  · cases h

structure Plain (d : Disk) (place : Place) : Prop where
  noDots : ".." ∉ place
  solid : ∀ above, above <+: place → ∀ target, d.root.get? above ≠ some (.link target)

namespace Plain

theorem of_isPrefix {above : Place} (h : d.Plain place) (habove : above <+: place) : d.Plain above where
  noDots hmem := h.noDots (habove.subset hmem)
  solid _ hpart := h.solid _ (hpart.trans habove)

theorem snoc {name : String} (h : d.Plain place) (hname : name ≠ "..")
    (hlink : ∀ target, d.root.get? (place ++ [name]) ≠ some (.link target)) : d.Plain (place ++ [name]) where
  noDots := by simpa using ⟨h.noDots, hname.symm⟩
  solid above habove target := by
    rcases List.prefix_concat_iff.1 habove with rfl | habove
    · exact hlink target
    · exact h.solid above habove target

theorem followNames_ne {expand : Place → String → List String → Except DiskFault Spot} (h : d.Plain (place ++ names)) :
    d.followNames true expand place names ≠ .error .tooManyLinks := by
  induction names generalizing place with
  | nil =>
    rw [followNames]
    split <;> simp
  | cons name rest ih =>
    have hname : name ≠ ".." := by
      rintro rfl
      exact h.noDots (by simp)
    have hnext : place ++ name :: rest = (place ++ [name]) ++ rest := by simp
    rw [followNames]
    split
    · next entries here =>
      rw [if_neg hname]
      split
      · split <;> simp
      · next target found =>
        have hlink := (Node.get?_snoc name here).trans found
        exact absurd hlink (h.solid _ (hnext ▸ List.prefix_append _ rest) target)
      · exact ih (hnext ▸ h)
    · simp
    · simp

end Plain

theorem Grows.plain (h : Grows d d') (hplain : d.Plain place) : d'.Plain place where
  noDots := hplain.noDots
  solid above habove target hlink := hplain.solid above habove target (h.links above target hlink)

/-- Whatever a path resolves to is a plain place. -/
def Untangled (d : Disk) : Prop := ∀ p q, d.resolve p = .ok q → d.Plain q.names

/-- If paths resolve to plain places, they still resolve to the same ones. -/
theorem Grows.resolve_eq (h : Grows d d') (hd : d.Untangled) : d'.resolve = d.resolve := by
  funext p
  rw [resolve, resolve, h.unlinked_eq]
  cases hunlinked : d.unlinked p with
  | error fault => rfl
  | ok q =>
    simp only [bind, Except.bind]
    cases hname : nameFault? q with
    | some fault => rfl
    | none =>
      by_cases hmany : d.locate true q = .error .tooManyLinks
      · rw [hmany, h.locate_tooManyLinks hmany]
      · -- The path was not refused before, and so resolved to a place without links, where none is found now.
        have hplain := h.plain (hd p q (resolve_eq_ok.2 ⟨hunlinked, hname, hmany⟩))
        have hmany' : d'.locate true q ≠ .error .tooManyLinks := by
          rw [locate, start, if_pos (isAbsolute_of_unlinked hunlinked)]
          exact hplain.followNames_ne
        split
        · cases ‹_›
        · exact absurd ‹_› hmany'
        · rfl

/-! ## Links that lead somewhere -/

theorem Leads.plain {n : Nat} {dest : Place} (h : Leads d n place names dest) (hplace : d.Plain place) :
    d.Plain dest := by
  induction h with
  | done place => exact hplace
  | up here next ih => exact ih (hplace.of_isPrefix (List.dropLast_prefix _))
  | @enter n place dest entries name node rest here plain found solid next ih =>
    refine ih (hplace.snoc plain fun target hlink => ?_)
    rw [Node.get?_snoc name here, found] at hlink
    exact solid target (Option.some.inj hlink)
  | link here plain found next suits ih =>
    refine ih ?_
    rw [linkStart]
    split
    · exact hplace.of_isPrefix List.nil_prefix
    · exact hplace

/-- If every link leads somewhere, replacing the links of a path leaves a plain place, unless a name is at fault. -/
theorem resolveNames_plain (hp : d.root.isProper = true)
    (hlinks : ∀ place name target, d.root.get? (place ++ [name]) = some (.link target) →
      ∃ n ≤ maxLinks, ∃ dest, Leads d n place [name] dest)
    (hplace : d.Plain place) {steps : List (String × String)} :
    (∃ fault, d.resolveNames [] (d.resolveLink maxLinkDepth) place steps = .error (.fault fault)) ∨
      ∃ dest, d.resolveNames [] (d.resolveLink maxLinkDepth) place steps = .ok dest ∧ d.Plain dest := by
  induction steps generalizing place with
  | nil => exact .inr ⟨place, rfl, hplace⟩
  | cons step rest ih =>
    obtain ⟨name, root⟩ := step
    rw [resolveNames]
    by_cases hup : name = ".."
    · rw [if_pos hup]
      exact ih (hplace.of_isPrefix (List.dropLast_prefix _))
    · rw [if_neg hup]
      simp only
      split
      · exact .inl ⟨_, rfl⟩
      · split
        · next target hlink =>
          obtain ⟨n, hn, dest, hleads⟩ := hlinks place name target hlink
          obtain ⟨n, rfl, htarget⟩ := hleads.of_link hup hlink
          have hspares : Spares d n [place ++ [name]] :=
            Spares.cons (fun _ _ hmem => absurd hmem List.not_mem_nil) hleads
          have henter := resolveLink_of_leads hp maxLinkDepth n place [place ++ [name]] target dest
            (Nat.lt_of_lt_of_le hn (by decide)) hspares htarget
          simp only [List.not_mem_nil, if_false, henter]
          exact ih (hleads.plain hplace)
        · next hsolid => exact ih (hplace.snoc hup hsolid)

/-- If every link leads somewhere, paths resolve to plain places. -/
theorem untangled_of_leads (hp : d.root.isProper = true) (hcurrent : d.Plain d.current)
    (hlinks : ∀ place name target, d.root.get? (place ++ [name]) = some (.link target) →
      ∃ n ≤ maxLinks, ∃ dest, Leads d n place [name] dest) : d.Untangled := by
  intro p q h
  have hstart : d.Plain (d.start p) := by
    rw [start]
    split
    · exact hcurrent.of_isPrefix List.nil_prefix
    · exact hcurrent
  have hunlinked := (resolve_eq_ok.1 h).1
  rcases resolveNames_plain hp hlinks hstart with ⟨fault, hfault⟩ | ⟨dest, hdest, hplain⟩
  · rw [unlinked, hfault] at hunlinked
    cases hunlinked
  · rw [unlinked, hdest] at hunlinked
    cases hunlinked
    exact hplain

end Disk
end SourceAudit
