import SourceAudit.Proofs.Config.ReportDirectory
import SourceAudit.Proofs.Disk.Visible

/-!
# What the report directory hides

The first name on the way to the report is among the names of directories that are not entered, and these are compared
with every directory of the tree. So the choice of a report directory hides more than the report: whatever is in a
directory of that first name is hidden, however deep the directory lies, and whatever else is in it. Apart from this the
choice makes no difference.

Results:
* `Config.mem_candidates_iff`: which files a configuration leaves visible.
* `Config.reportDir_hides_namesakes`: with other report directories the same files are candidates, apart from those in
  directories that are named like the first name of one of them.
* `Config.reportDir_hides_elsewhere`: files that are hidden and are not below the report directory.
-/
namespace SourceAudit

open Disk (Candidate)

/-- The names of the directories between the root of a tree and a candidate of it. -/
def Disk.Candidate.directories (root : Path) (c : Candidate) : List String :=
  (c.path.names.drop root.names.length).dropLast

theorem Disk.Candidate.directories_eq (root : Path) (names : List String) (relative : String) :
    directories root ⟨⟨root.root, root.names ++ names⟩, relative⟩ = names.dropLast := by
  rw [directories, List.drop_left]

namespace Config

variable {c c₁ c₂ : Config} {d : Disk} {first : String} {rest : List String}

/-- Which files a configuration leaves visible: those behind directories that have none of the usual names and none of
the further ones, and are not named like the first one on the way to the report. -/
theorem mem_candidates_iff (hp : d.root.isProper = true) {dirs : List String} {extras : List Json}
    (hdirs : c.ignoredDirs = .ok dirs) (hextras : namesOf c.extraIgnoreDirs = .ok extras)
    (hnames : (Path.ofString c.reportDirText).names = first :: rest) (root : Path) (filter : FileFilter)
    (x : Candidate) :
    x ∈ d.candidates dirs root filter ↔
      x ∈ d.candidates [] root filter ∧ first ∉ x.directories root ∧
        ∀ name ∈ x.directories root, name ∉ defaultIgnoredDirs ∧ .string name ∉ extras := by
  have hmem : ∀ name, name ∉ dirs ↔ name ≠ first ∧ name ∉ defaultIgnoredDirs ∧ .string name ∉ extras := by
    intro name
    rw [mem_ignoredDirs hdirs hextras, hnames, List.head?_cons, Option.some.injEq, not_or, not_or, eq_comm]
    tauto
  rw [Disk.mem_candidates_iff hp, Disk.mem_candidates_iff hp]
  constructor
  · rintro ⟨names, hvisible, hselects, rfl⟩
    obtain ⟨hvisible, hentered⟩ := Disk.visible_iff.1 hvisible
    rw [Candidate.directories_eq]
    refine ⟨⟨names, hvisible, hselects, rfl⟩, fun h => ?_, fun name h => ((hmem name).1 (hentered name h)).2⟩
    exact ((hmem first).1 (hentered first h)).1 rfl
  · rintro ⟨⟨names, hvisible, hselects, rfl⟩, hfirst, hothers⟩
    rw [Candidate.directories_eq] at hfirst hothers
    refine ⟨names, Disk.visible_iff.2 ⟨hvisible, fun name h => (hmem name).2 ⟨?_, hothers name h⟩⟩, hselects, rfl⟩
    rintro rfl
    exact hfirst h

/-- **The report directory hides its namesakes.** Let two configurations name the same further directories. Then the
directories that are not entered are known for both or for neither. If they are known, then both have the same
candidates in the same order, in every tree and for every filter, once those are left out that are in a directory, at
any depth, with the first name of one of the two report directories; and neither has a candidate in a directory with
the first name of its own. -/
theorem reportDir_hides_namesakes (hp : d.root.isProper = true) (hextra : c₂.extraIgnoreDirs = c₁.extraIgnoreDirs)
    {first₁ first₂ : String} {rest₁ rest₂ : List String}
    (hnames₁ : (Path.ofString c₁.reportDirText).names = first₁ :: rest₁)
    (hnames₂ : (Path.ofString c₂.reportDirText).names = first₂ :: rest₂) :
    ((∃ dirs, c₁.ignoredDirs = .ok dirs) ↔ ∃ dirs, c₂.ignoredDirs = .ok dirs) ∧
    ∀ dirs₁ dirs₂, c₁.ignoredDirs = .ok dirs₁ → c₂.ignoredDirs = .ok dirs₂ → ∀ (root : Path) (filter : FileFilter),
      let apart := List.filter fun x : Candidate => first₁ ∉ x.directories root ∧ first₂ ∉ x.directories root
      apart (d.candidates dirs₁ root filter) = apart (d.candidates dirs₂ root filter) ∧
      (∀ x ∈ d.candidates dirs₁ root filter, first₁ ∉ x.directories root) ∧
      ∀ x ∈ d.candidates dirs₂ root filter, first₂ ∉ x.directories root := by
  have hknown : (∃ dirs, c₁.ignoredDirs = .ok dirs) ↔ ∃ dirs, c₂.ignoredDirs = .ok dirs := by
    rw [exists_ignoredDirs, exists_ignoredDirs, hextra, hnames₁, hnames₂]
    exact and_congr_left' (iff_of_true (List.cons_ne_nil _ _) (List.cons_ne_nil _ _))
  refine ⟨hknown, fun dirs₁ dirs₂ hdirs₁ hdirs₂ root filter => ?_⟩
  obtain ⟨-, extras, hextras₁⟩ := exists_ignoredDirs.1 ⟨dirs₁, hdirs₁⟩
  have hextras₂ : namesOf c₂.extraIgnoreDirs = .ok extras := by rw [hextra, hextras₁]
  have hmem₁ := mem_candidates_iff hp hdirs₁ hextras₁ hnames₁ root filter
  have hmem₂ := mem_candidates_iff hp hdirs₂ hextras₂ hnames₂ root filter
  refine ⟨?_, fun x hx => ((hmem₁ x).1 hx).2.1, fun x hx => ((hmem₂ x).1 hx).2.1⟩
  -- Both lists are in the same order, so it is enough that they have the same members.
  refine ((Disk.pairwise_candidates hp).filter _).eq_of_mem_iff ((Disk.pairwise_candidates hp).filter _) fun x => ?_
  rw [List.mem_filter, List.mem_filter, hmem₁, hmem₂]
  simp only [decide_eq_true_eq]
  tauto

end Config

/-! ## Directories of the same name -/

/-- A tree with two directories of the same name, at its root and further down. -/
def namesakeTree : Disk := {
  root := .dir [("r", .dir [
    ("main.py", .file []), ("out", .dir [("other.py", .file [])]),
    ("src", .dir [("out", .dir [("app.py", .file [])])])])] }

namespace Config

/-- With two report directories the same file is a candidate, besides those in the two directories of the same name. -/
theorem reportDir_hides_namesakes_nested :
    let c := fun s => ({ reportDir := .string s } : Config)
    let root : Path := ⟨"/", ["r"]⟩
    let python : FileFilter := { extensions := [".py"] }
    let usual := defaultIgnoredDirs ++ ["security_report"]
    let other := defaultIgnoredDirs ++ ["out"]
    let apart := List.filter fun x : Candidate => "security_report" ∉ x.directories root ∧ "out" ∉ x.directories root
    (c "security_report").ignoredDirs = .ok usual ∧ (c "out/latest").ignoredDirs = .ok other ∧
    (namesakeTree.candidates usual root python).map (·.relative) = ["main.py", "out/other.py", "src/out/app.py"] ∧
    (apart (namesakeTree.candidates usual root python)).map (·.relative) = ["main.py"] ∧
    apart (namesakeTree.candidates usual root python) = apart (namesakeTree.candidates other root python) := by
  intro c root python usual other apart
  have husual : (c "security_report").ignoredDirs = .ok usual := Fallible.eq_ok_of_toOption (by decide +kernel)
  have hother : (c "out/latest").ignoredDirs = .ok other := Fallible.eq_ok_of_toOption (by decide +kernel)
  have hnames : (Path.ofString (c "security_report").reportDirText).names = ["security_report"] := by decide +kernel
  have hnames' : (Path.ofString (c "out/latest").reportDirText).names = ["out", "latest"] := by decide +kernel
  have hp : namesakeTree.root.isProper = true := by decide +kernel
  have hextra : (c "out/latest").extraIgnoreDirs = (c "security_report").extraIgnoreDirs := rfl
  have hsame := (reportDir_hides_namesakes hp hextra hnames hnames').2 usual other husual hother root python
  exact ⟨husual, hother, by decide +kernel, by decide +kernel, hsame.1⟩

/-- A report directory with two names hides what is not below it: other files in the directory of its first name, and
all files in a directory of that name elsewhere. -/
theorem reportDir_hides_elsewhere :
    let c := fun s => ({ reportDir := .string s } : Config)
    let root : Path := ⟨"/", ["r"]⟩
    let python : FileFilter := { extensions := [".py"] }
    let usual := defaultIgnoredDirs ++ ["security_report"]
    let other := defaultIgnoredDirs ++ ["out"]
    let apart := List.filter fun x : Candidate =>
      ¬(root.join (.ofString "security_report")).names <+: x.path.names ∧
        ¬(root.join (.ofString "out/latest")).names <+: x.path.names
    ((c "security_report").check = .ok () ∧ (c "out/latest").check = .ok ()) ∧
    (Path.ofString "security_report").names = ["security_report"] ∧
    (Path.ofString "out/latest").names = ["out", "latest"] ∧
    (c "security_report").ignoredDirs = .ok usual ∧ (c "out/latest").ignoredDirs = .ok other ∧
    (apart (namesakeTree.candidates usual root python)).map (·.relative) =
      ["main.py", "out/other.py", "src/out/app.py"] ∧
    (apart (namesakeTree.candidates other root python)).map (·.relative) = ["main.py"] := by
  intro c root python usual other apart
  exact ⟨⟨check_of_reportDir (by decide +kernel), check_of_reportDir (by decide +kernel)⟩, by decide +kernel,
    by decide +kernel, Fallible.eq_ok_of_toOption (by decide +kernel), Fallible.eq_ok_of_toOption (by decide +kernel),
    by decide +kernel, by decide +kernel⟩

end Config
end SourceAudit
