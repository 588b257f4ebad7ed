import SourceAudit.Proofs.Audit.LinterFailure
import SourceAudit.Proofs.Config.ReportDirectory
import SourceAudit.Proofs.Disk.Visible
import SourceAudit.Proofs.Disk.Writing

/-!
# Writing a report does not disturb the next audit

A report lies in the tree that it is about, and its files would be candidates by their names and by their text. They are
not looked at, because the first directory on the way to them is not entered. So an audit of the tree with the report
in it comes to the same report, and writing this report again changes nothing.

Results:
* `Node.listing_of_differ`: what stands under a name that is not entered makes no difference to a listing.
* `Disk.alike_of_touches`: nor does it to the candidates, to what is read of them, and to what paths resolve to.
* `Audit.scan_congr`: an audit depends on no more of a disk.
* `Audit.rescan_unchanged`: any number of audits, each followed by writing the report, gives the same report.
-/
namespace SourceAudit

open Disk (Candidate)
open Fallible

/-! ## Listings -/

theorem Association.map_set {α β γ : Type} [DecidableEq α] {key : α} {value : β} {f : α × β → γ}
    {pairs : List (α × β)} (hmem : key ∈ pairs.map (·.1))
    (h : ∀ old, pairs.lookup key = some old → f (key, value) = f (key, old)) :
    (set key value pairs).map f = pairs.map f := by
  induction pairs with
  | nil => cases hmem
  | cons first rest ih =>
    obtain ⟨k, v⟩ := first
    rw [set]
    by_cases hk : k = key
    · subst hk
      rw [if_pos rfl, List.map_cons, List.map_cons, h v (by rw [lookup_cons, if_pos rfl])]
    · have hrest : key ∈ rest.map (·.1) := (List.mem_cons.1 hmem).resolve_left (Ne.symm hk)
      rw [if_neg hk, List.map_cons, List.map_cons, ih hrest fun old hold => h old ?_]
      rw [lookup_cons, if_neg (Ne.symm hk), hold]

namespace Item

theorem arrange_concat_other (items : List (String × Item)) (name : String) :
    arrange (items ++ [(name, .other)]) = arrange items := by
  have hinsert : ∀ sorted, files (insertBy (·.1) (name, .other) sorted) = files sorted ∧
      nested (insertBy (·.1) (name, .other) sorted) = nested sorted := by
    intro sorted
    induction sorted with
    | nil => exact ⟨rfl, rfl⟩
    | cons first rest ih =>
      obtain ⟨hfiles, hnested⟩ := ih
      unfold insertBy
      split
      · constructor
        · rw [files, List.filterMap_cons, ← files, hfiles, files, files, List.filterMap_cons]
        · rw [nested, List.flatMap_cons, ← nested, hnested, nested, nested, List.flatMap_cons]
      · exact ⟨rfl, rfl⟩
  rw [arrange, sortBy_concat, (hinsert _).1, (hinsert _).2, arrange]

end Item

namespace Node

variable {ignored : List String} {name : String} {entries entries' : List (String × Node)}

theorem Linkless.of_mem (hp : (dir entries).isProper = true) (h : (dir entries).Linkless) {e : String × Node}
    (hmem : e ∈ entries) : e.2.Linkless := by
  intro place target hlink
  have hlookup : entries.lookup e.1 = some e.2 :=
    (Association.lookup_eq_some_iff_mem ((isProper_dir entries).1 hp).1).2 hmem
  exact h (e.1 :: place) target (get?_cons_eq_some.2 ⟨entries, e.2, rfl, hlookup, hlink⟩)

theorem item_of_linkless {node : Node} (hp : node.isProper = true) (h : node.Linkless) (place : Place) (name : String)
    (linksToFile linksToFile' : Place → Bool) :
    node.item ignored linksToFile place name = node.item ignored linksToFile' place name := by
  induction node using Node.induction generalizing place name with
  | file | locked => rfl
  | link target => exact absurd rfl (h [] target)
  | dir entries ih =>
    have hentries := ((isProper_dir entries).1 hp).2
    rw [item, item, items_eq_map, items_eq_map]
    congr 3
    refine List.map_congr_left fun e he => ?_
    rw [ih e he (hentries e he).2 (h.of_mem hp he)]

/-- What stands under a name that is not entered makes no difference to a listing, if it is a directory. -/
theorem listing_of_differ (hp : (dir entries).isProper = true) (h : (dir entries).Linkless) (hname : name ∈ ignored)
    (hdiffer : Differ name entries entries') (place : Place) (linksToFile linksToFile' : Place → Bool) :
    (dir entries').listing ignored linksToFile' place = (dir entries).listing ignored linksToFile place := by
  have hsame : items ignored linksToFile' place entries = items ignored linksToFile place entries := by
    have hentries := ((isProper_dir entries).1 hp).2
    rw [items_eq_map, items_eq_map]
    refine List.map_congr_left fun e he => ?_
    rw [item_of_linkless (hentries e he).2 (h.of_mem hp he)]
  have hother : ∀ node : Node, node.isDir = true → node.item ignored linksToFile' place name = .other := by
    intro node hdir
    cases node with
    | dir children => rw [item, if_pos (by simpa using hname)]
    | file | locked | link => cases hdir
  rw [listing, listing, ← hsame]
  rcases hdiffer with rfl | ⟨new, hnew, hold, rfl⟩
  · rfl
  · rw [items_eq_map, items_eq_map]
    by_cases hmem : name ∈ entries.map (·.1)
    · rw [Association.map_set hmem fun old hlookup => ?_]
      rw [hother new hnew, hother old (hold old hlookup)]
    · rw [Association.set_of_fresh hmem, List.map_append, List.map_singleton, hother new hnew,
        Item.arrange_concat_other]

theorem head_ne_of_mem_listing (hp : (dir entries).isProper = true) (hname : name ∈ ignored)
    (hold : ∀ old, entries.lookup name = some old → old.isDir = true) {linksToFile : Place → Bool} {place : Place}
    {first : String} {rest : List String}
    (hmem : first :: rest ∈ (dir entries).listing ignored linksToFile place) : first ≠ name := by
  rintro rfl
  rcases mem_listing_dir.1 hmem with ⟨x, node, hentry, hitem, heq⟩ | ⟨x, node, below, hentry, hentered, -, heq⟩
  · cases heq
    have hlookup := (Association.lookup_eq_some_iff_mem ((isProper_dir entries).1 hp).1).2 hentry
    have hdir := hold node hlookup
    cases node with
    | dir children =>
      rw [item] at hitem
      split at hitem <;> cases hitem
    | file | locked | link => cases hdir
  · cases heq
    exact hentered hname

end Node

/-! ## Disks that an audit cannot tell apart -/

namespace Disk

/-- Two disks on which an audit of the tree at a path finds the same. -/
structure Alike (ignored : List String) (root : Path) (d d' : Disk) : Prop where
  has : d'.has root = d.has root
  isDir : d'.isDir root = d.isDir root
  candidates : ∀ filter, d'.candidates ignored root filter = d.candidates ignored root filter
  read : ∀ filter, ∀ c ∈ d.candidates ignored root filter, SourceText.read d' c.path = SourceText.read d c.path
  resolve : d'.resolve = d.resolve

variable {ignored : List String} {root : Path} {d d' : Disk} {place : Place} {name : String}

theorem Reaches.listing (h : d.Reaches root place) {node : Node} (here : d.root.get? place = some node) :
    d.listing ignored root = node.listing ignored (fun names => d.isFile ⟨root.root, root.names ++ names⟩) [] := by
  rw [Disk.listing, h.locate_self here]

/-- A change under a name that is not entered cannot be told. -/
theorem alike_of_touches (hp : d.root.isProper = true) (hd : d.LinklessAt place) (huntangled : d.Untangled)
    (h : d.Reaches root place) {entries : List (String × Node)} (here : d.root.get? place = some (.dir entries))
    (hname : name ∈ ignored) (ht : Touches place name d d') : Alike ignored root d d' := by
  obtain ⟨entries', here', hdiffer⟩ := ht.entries entries here
  have hd' := ht.linklessAt hd
  have h' := h.mono ht.toGrows
  have hproper := (Node.isProper_of_get? hp here).1
  have hsolid := (linklessAt_iff here).1 hd
  have hfind : d.find? root = some (.dir entries) := by rw [find?, h.locate_self here]
  have hfind' : d'.find? root = some (.dir entries') := by rw [find?, h'.locate_self here']
  have hlisting : d'.listing ignored root = d.listing ignored root := by
    rw [h'.listing here', h.listing here]
    exact Node.listing_of_differ hproper hsolid hname hdiffer [] _ _
  have hcandidates : ∀ filter, d'.candidates ignored root filter = d.candidates ignored root filter := by
    intro filter
    rw [Disk.candidates, hlisting, Disk.candidates]
  refine ⟨?_, ?_, hcandidates, ?_, ht.resolve_eq huntangled⟩
  · rw [has, has, hfind', hfind]
    rfl
  · rw [isDir, isDir, hfind', hfind]
    rfl
  · intro filter c hc
    obtain ⟨names, hnames, rfl⟩ := List.mem_map.1 (List.mem_filter.1 hc).1
    obtain ⟨hne, hfiles⟩ := mem_listing hp hnames
    have hup : ".." ∉ names := fun hmem => absurd (hfiles _ hmem) (by decide)
    rw [h.listing here] at hnames
    have hget : d'.root.get? (place ++ names) = d.root.get? (place ++ names) := by
      rw [Node.get?_append, Node.get?_append, here, here', Option.bind_some, Option.bind_some]
      rcases hdiffer with rfl | ⟨new, -, hold, rfl⟩
      · rfl
      · obtain ⟨first, rest, rfl⟩ := List.exists_cons_of_ne_nil hne
        rw [Node.get?_set, if_neg (Node.head_ne_of_mem_listing hproper hname hold hnames)]
    obtain ⟨-, -, leaf, hleaf, -⟩ := (Node.mem_listing_iff hproper).1 hnames
    have hfound : d.root.get? (place ++ names) = some leaf := by
      rw [Node.get?_append, here, Option.bind_some, hleaf]
    rw [SourceText.read_of_find? ((h'.find?_below hd' hup).trans (hget.trans hfound)),
      SourceText.read_of_find? ((h.find?_below hd hup).trans hfound)]

end Disk

/-! ## Audits of disks that are alike -/

namespace Audit

variable {a : Audit} {d' : Disk} {root : Path}

theorem judge_congr {p : Profile} {calls : Nat} {candidates : List Candidate}
    (hread : ∀ c ∈ candidates, SourceText.read d' c.path = SourceText.read a.disk c.path)
    (hresolve : d'.resolve = a.disk.resolve) :
    ({ a with disk := d' } : Audit).judge p calls candidates = a.judge p calls candidates := by
  have hevaluate : candidates.mapM (p.evaluate d') = candidates.mapM (p.evaluate a.disk) :=
    mapM_congr fun c hc => by rw [Profile.evaluate, hread c hc, Profile.evaluate]
  have hlint : ∀ files, ({ a with disk := d' } : Audit).lint p calls files = a.lint p calls files := by
    intro files
    unfold lint
    simp only [hresolve]
  unfold judge
  simp only [hevaluate, hlint]
  cases hevaluations : candidates.mapM (p.evaluate a.disk) with
  | error fault => rfl
  | ok evaluations =>
    have hlog : ∀ x ∈ candidates.zip evaluations, p.logOf d' x.1 x.2 = p.logOf a.disk x.1 x.2 := by
      intro x hx
      have hc := hread x.1 (List.of_mem_zip hx).1
      cases x.2 <;> simp only [Profile.logOf, hc]
    simp only [List.flatMap_congr hlog]

theorem runConcern_congr (h : Disk.Alike a.ignoredDirs root a.disk d') (calls : Nat) (concern : Concern) :
    ({ a with disk := d' } : Audit).runConcern calls root concern = a.runConcern calls root concern := by
  have hroot : ({ a with disk := d' } : Audit).checkRoot root = a.checkRoot root := by
    simp only [checkRoot, h.has, h.isDir]
  unfold runConcern
  simp only [hroot, h.candidates]
  cases a.checkRoot root with
  | error fault => rfl
  | ok _ =>
    cases a.registry.find? concern with
    | none => rfl
    | some p => simp only [judge_congr (h.read p.filter) h.resolve]

theorem runConcerns_congr (h : Disk.Alike a.ignoredDirs root a.disk d') (concerns : List Concern) (calls : Nat) :
    ({ a with disk := d' } : Audit).runConcerns root calls concerns = a.runConcerns root calls concerns := by
  induction concerns generalizing calls with
  | nil => rfl
  | cons concern rest ih =>
    unfold runConcerns
    simp only [runConcern_congr h, ih]

/-- An audit finds the same on disks that are alike. -/
theorem scan_congr (h : Disk.Alike a.ignoredDirs root a.disk d') (concerns : List Concern) :
    ({ a with disk := d' } : Audit).scan root concerns = a.scan root concerns := by
  have hroot : ({ a with disk := d' } : Audit).checkRoot root = a.checkRoot root := by
    simp only [checkRoot, h.has, h.isDir]
  unfold scan
  simp only [hroot, runConcerns_congr h]

theorem isDir_of_scan {concerns : List Concern} {report : Report} (h : (a.scan root concerns).outcome = .ok report) :
    a.disk.isDir root = true := by
  rw [← checkRoot_eq_ok]
  unfold scan at h
  cases hroot : a.checkRoot root with
  | error fault => rw [hroot] at h; cases h
  | ok _ => rfl

end Audit

/-! ## Rounds -/

/-- A linter whose answer depends on the paths alone. -/
def Linter.IsSteady (l : Linter) : Prop := ∀ n m paths, l.backend.run n paths = l.backend.run m paths

/-- A linter that has been called before. -/
def Linter.after (calls : Nat) (l : Linter) : Linter := l.withRun fun n paths => l.backend.run (calls + n) paths

theorem Linter.IsSteady.after_eq {l : Linter} (h : l.IsSteady) (calls : Nat) : l.after calls = l := by
  have hrun : (fun n paths => l.backend.run (calls + n) paths) = l.backend.run := by
    funext n paths
    exact h _ _ _
  rw [after, hrun]
  rfl

/-- Audits a tree and writes the report into it, again and again: what the audits come to, and the disk in the end.
There is a round for each number of `history`, which tells how often the linter was called before it. -/
def Audit.rounds (linter : Option Linter) (ignored : List String) (root : Path) (concerns : List Concern)
    (directory : String) : (history : List Nat) → Disk → List (Except AuditFault Report) × Disk
  | [], d => ([], d)
  | calls :: history, d =>
    match (scan { registry := .standard (linter.map (·.after calls)), disk := d, ignoredDirs := ignored } root
      concerns).outcome with
    | .error fault => ([.error fault], d)
    | .ok report =>
      let (later, last) := rounds linter ignored root concerns directory history (report.write d root directory).1
      (.ok report :: later, last)

/-- **Writing a report does not disturb the next audit.** Let a tree hold no link, on a disk where paths resolve to
plain places, as they do if there is no link elsewhere or each leads somewhere. Let a configuration pass the checks, let
its report directory have no double dot, and let the linter's answer depend on the paths alone. If an audit comes to a
report and the report can be written, then an audit of the tree with the report in it runs just as the first one did,
and the languages of the tree are the same. So any number of audits, each followed by writing the report, gives the same
report each time and leaves the disk as the first one did. -/
theorem Audit.rescan_unchanged {linter : Option Linter} {c : Config} {d : Disk} {root : Path} {concerns : List Concern}
    {ignored : List String} (hp : d.root.isProper = true) (hlinks : (d.find? root).all (·.isLinkless) = true)
    (huntangled : d.Untangled)
    (hsteady : ∀ l ∈ linter, l.IsSteady) (hcheck : c.check = .ok ()) (hignored : c.ignoredDirs = .ok ignored)
    (hup : ".." ∉ (Path.ofString c.reportDirText).names) :
    let audit := fun linter disk => scan { registry := .standard linter, disk, ignoredDirs := ignored } root concerns
    ∀ report d' files, (audit linter d).outcome = .ok report →
      report.write d root c.reportDirText = (d', .ok files) →
        (∀ calls, audit (linter.map (·.after calls)) d' = audit linter d) ∧
        d'.languageNames ignored root = d.languageNames ignored root ∧
        ∀ history, history ≠ [] →
          rounds linter ignored root concerns c.reportDirText history d = (history.map fun _ => .ok report, d') := by
  intro audit report d' files hscan hwrite
  have hroot : d.isDir root = true := isDir_of_scan hscan
  obtain ⟨place, entries, hreach, here⟩ := Disk.reaches_of_isDir hroot
  have hd : d.LinklessAt place := by
    rw [Disk.find?, hreach.locate_self here] at hlinks
    exact (Disk.linklessAt_iff here).2 (Node.linkless_of_isLinkless hlinks)
  have hrel := Config.check_reportDir hcheck
  obtain ⟨hne, extras, hextras⟩ := Config.exists_ignoredDirs.1 ⟨ignored, hignored⟩
  obtain ⟨first, rest, hnames⟩ := List.exists_cons_of_ne_nil hne
  have hfirst : first ∈ ignored := by
    refine (Config.mem_ignoredDirs hignored hextras first).2 (.inr (.inr ?_))
    rw [hnames, List.head?_cons]
  rw [hnames] at hup
  obtain ⟨htouch, hpage, hdocument⟩ := Report.touches_write hd hreach hroot hrel hnames hup hwrite
  have halike := Disk.alike_of_touches hp hd huntangled hreach here hfirst htouch
  have hlinter : ∀ calls, linter.map (·.after calls) = linter := by
    intro calls
    cases linter with
    | none => rfl
    | some l => rw [Option.map_some, (hsteady l rfl).after_eq]
  have hrescan : ∀ calls, audit (linter.map (·.after calls)) d' = audit linter d := by
    intro calls
    rw [hlinter]
    exact scan_congr (a := { registry := .standard linter, disk := d, ignoredDirs := ignored }) halike concerns
  have hagain : report.write d' root c.reportDirText = (d', .ok (Report.filesIn root c.reportDirText)) := by
    rw [← hnames] at hup hpage hdocument
    exact Report.write_again (htouch.linklessAt hd) (hreach.mono htouch.toGrows) hrel hup hpage hdocument
  have hlater : ∀ history, rounds linter ignored root concerns c.reportDirText history d' =
      (history.map fun _ => .ok report, d') := by
    intro history
    induction history with
    | nil => rfl
    | cons calls history ih =>
      have hround : (audit (linter.map (·.after calls)) d').outcome = .ok report := by rw [hrescan, hscan]
      rw [rounds, hround]
      simp only [hagain, ih, List.map_cons]
  refine ⟨hrescan, ?_, ?_⟩
  · rw [Disk.languageNames, halike.candidates, Disk.languageNames]
  · intro history hsome
    obtain ⟨calls, history, rfl⟩ := List.exists_cons_of_ne_nil hsome
    have hround : (audit (linter.map (·.after calls)) d).outcome = .ok report := by rw [hlinter, hscan]
    rw [rounds, hround]
    simp only [hwrite, hlater, List.map_cons]

/-! ## A report among the files it is about -/

/-- The tree whose risks are mitigated, and a link that leads to it. -/
def linkedTree : Disk := mitigatedTree.put ["repository"] (.link "r")

theorem untangled_linkedTree : linkedTree.Untangled := by
  have hlink : ∀ place target, linkedTree.root.get? place = some (.link target) → place = ["repository"] := by
    intro place target h
    have hr : mitigatedTree.root.Linkless := Node.linkless_of_isLinkless (by decide +kernel)
    cases place with
    | nil => cases h
    | cons first rest =>
      obtain ⟨entries, hentries⟩ : ∃ entries, mitigatedTree.root = .dir entries := ⟨_, rfl⟩
      rw [linkedTree, Disk.put, hentries, Node.put, Node.get?_set] at h
      rw [hentries] at hr
      split at h
      · next hfirst =>
        cases rest with
        | nil => rw [hfirst]
        | cons => cases h
      · exact absurd h (hr (first :: rest) target)
  refine Disk.untangled_of_leads (by decide +kernel) ⟨List.not_mem_nil, fun above habove target h => ?_⟩
    fun place name target h => ?_
  · rw [List.prefix_nil.1 habove] at h
    cases h
  · have hplace : place ++ [name] = [] ++ ["repository"] := hlink _ target h
    obtain ⟨rfl, hname⟩ := List.append_inj' hplace rfl
    cases hname
    have hlocate : linkedTree.locate true ⟨"/", ["repository"]⟩ =
        .ok (.taken ["r"] ((mitigatedTree.root.get? ["r"]).getD (.dir []))) := rfl
    obtain ⟨n, hn, hleads, -⟩ := Disk.leads_of_locate hlocate
    exact ⟨n, hn, ["r"], hleads⟩

/-- Three audits of a tree give the same report, which lies in the tree from the first one on. -/
theorem Audit.rescan_unchanged_linkedTree :
    let c : Config := { reportDir := .string "out/.//latest" }
    let root : Path := ⟨"/", ["repository"]⟩
    let concerns : List Concern := [.sanitization, .cors]
    let ignored := defaultIgnoredDirs ++ ["out"]
    let audit : Audit := { registry := .standard (some silentLinter), disk := linkedTree, ignoredDirs := ignored }
    c.check = .ok () ∧ c.ignoredDirs = .ok ignored ∧
    ∃ report d', (audit.scan root concerns).outcome = .ok report ∧
      report.write linkedTree root c.reportDirText =
        (d', .ok ⟨⟨"/", ["repository", "out", "latest", "report.html"]⟩,
          ⟨"/", ["repository", "out", "latest", "report.json"]⟩⟩) ∧
      rounds (some silentLinter) ignored root concerns c.reportDirText [0, 1, 5] linkedTree =
        ([.ok report, .ok report, .ok report], d') := by
  intro c root concerns ignored audit
  have hcheck : c.check = .ok () := Config.check_of_reportDir (by decide +kernel)
  have hignored : c.ignoredDirs = .ok ignored := eq_ok_of_toOption (by decide +kernel)
  obtain ⟨report, hscan⟩ : ∃ report, (audit.scan root concerns).outcome = .ok report :=
    exists_of_toBool (by decide +kernel)
  have hfiles : (report.write linkedTree root "out/.//latest").2 =
      .ok ⟨⟨"/", ["repository", "out", "latest", "report.html"]⟩,
        ⟨"/", ["repository", "out", "latest", "report.json"]⟩⟩ := by
    rfl
  have hwrite := Prod.eta (report.write linkedTree root "out/.//latest")
  rw [hfiles] at hwrite
  have hsteady : ∀ l ∈ some silentLinter, l.IsSteady := by
    intro l hl n m paths
    cases hl
    rfl
  have hunchanged := Audit.rescan_unchanged (by decide +kernel) (by decide +kernel) untangled_linkedTree hsteady hcheck
    hignored (by decide +kernel) report _ _ hscan hwrite.symm
  exact ⟨hcheck, hignored, report, _, hscan, hwrite.symm, hunchanged.2.2 [0, 1, 5] (by decide)⟩

end SourceAudit
