import Mathlib.Data.Fintype.EquivFin
import SourceAudit.Config
import SourceAudit.Proofs.Fallible
import SourceAudit.Proofs.Path

/-!
# Where reports are written

A report goes into a directory below the root of the tree, and the first name of its path is among the directories that
an audit does not enter. The checks on a configuration ask for a relative path that is not empty, and no more: the path
may consist of single dots, in which case it has no first name, and double dots in it may lead out of the tree or to a
directory other than the one that its first name tells.

Results:
* `check_reportDir`: the report directory of a configuration that passes the checks is a relative path.
* `exists_ignoredDirs`, `mem_ignoredDirs`: when there are directories that are not entered, and which.
* `Path.foldl_step_of_below?`: names that never lead above a directory lead to a place below it, whatever the directory.
* `reportDir_confined_iff`: the report directories that stay below every root, under a name that is not entered.
-/
namespace SourceAudit

open Fallible

/-! ## Double dots -/

namespace Path

/-- The place that a path means from the current directory on, with double dots carried out without regard to links. -/
def lexical (current : Place) (p : Path) : Place := Disk.foldDots ((if p.isAbsolute then [] else current) ++ p.names)

/-- Where a name leads to from a place below a directory, without leaving the directory. -/
def stepBelow? (place : Place) (name : String) : Option Place :=
  if name = ".." then (if place = [] then none else some place.dropLast) else some (place ++ [name])

/-- Where names lead to from a directory on, as names below it; none if a double dot leads above it on the way. -/
def below? (names : List String) : Option Place := names.foldlM stepBelow? []

theorem foldDots_eq (names : List String) : Disk.foldDots names = names.foldl step [] := rfl

theorem lexical_join (current : Place) (root : Path) {q : Path} (hq : q.isAbsolute = false) :
    (root.join q).lexical current = q.names.foldl step (root.lexical current) := by
  have hjoin : root.join q = ⟨root.root, root.names ++ q.names⟩ := by rw [join, hq]; rfl
  rw [hjoin, lexical, lexical, foldDots_eq, foldDots_eq, ← List.foldl_append, List.append_assoc]
  rfl

/-- Names that never lead above a directory lead to a place below it, whatever the directory. -/
theorem foldl_step_of_below? {names : List String} {place place' : Place} (root : Place)
    (h : names.foldlM stepBelow? place = some place') : names.foldl step (root ++ place) = root ++ place' := by
  induction names generalizing place with
  | nil =>
    cases h
    rfl
  | cons name rest ih =>
    rw [List.foldlM_cons] at h
    obtain ⟨next, hnext, hrest⟩ := Option.bind_eq_some_iff.1 h
    have hstep : step (root ++ place) name = root ++ next := by
      unfold stepBelow? at hnext
      unfold step
      split at hnext
      · next hup =>
        split at hnext
        · cases hnext
        · next hne =>
          cases hnext
          rw [if_pos hup, List.dropLast_append_of_ne_nil hne]
      · next hplain =>
        cases hnext
        rw [if_neg hplain, List.append_assoc]
    rw [List.foldl_cons, hstep]
    exact ih hrest

theorem below?_of_no_dots {names : List String} (h : ".." ∉ names) : below? names = some names := by
  have hgen : ∀ place : Place, names.foldlM stepBelow? place = some (place ++ names) := by
    induction names with
    | nil => intro place; simp
    | cons name rest ih =>
      intro place
      obtain ⟨hne, hrest⟩ : ".." ≠ name ∧ ".." ∉ rest := by simpa using h
      have hstep : stepBelow? place name = some (place ++ [name]) := if_neg (Ne.symm hne)
      rw [List.foldlM_cons, hstep]
      simpa using ih hrest (place ++ [name])
  exact hgen []

theorem not_mem_foldl_step {names : List String} {place : Place} {z : String} (hplace : z ∉ place)
    (hnames : z ∉ names) : z ∉ names.foldl step place := by
  induction names generalizing place with
  | nil => exact hplace
  | cons name rest ih =>
    obtain ⟨hne, hrest⟩ : z ≠ name ∧ z ∉ rest := by simpa using hnames
    refine ih ?_ hrest
    unfold step
    split
    · exact fun hmem => hplace (List.mem_of_mem_dropLast hmem)
    · simpa using ⟨hplace, hne⟩

/-- Names that lead above a directory on the way leave it for good, unless its name is among them. -/
theorem not_mem_of_below?_eq_none {names : List String} {place : Place} {z : String}
    (h : names.foldlM stepBelow? place = none) (hplace : z ∉ place) (hnames : z ∉ names) :
    z ∉ names.foldl step (z :: place) := by
  induction names generalizing place with
  | nil => cases h
  | cons name rest ih =>
    obtain ⟨hne, hrest⟩ : z ≠ name ∧ z ∉ rest := by simpa using hnames
    rw [List.foldlM_cons] at h
    rw [List.foldl_cons]
    by_cases hup : name = ".."
    · cases place with
      | nil =>
        have hstep : step [z] name = [] := if_pos hup
        rw [hstep]
        exact not_mem_foldl_step (List.not_mem_nil) hrest
      | cons first others =>
        have hstep : step (z :: first :: others) name = z :: (first :: others).dropLast := if_pos hup
        have hbelow : stepBelow? (first :: others) name = some (first :: others).dropLast := by
          rw [stepBelow?, if_pos hup, if_neg (List.cons_ne_nil _ _)]
        rw [hbelow] at h
        rw [hstep]
        exact ih h (fun hmem => hplace (List.mem_of_mem_dropLast hmem)) hrest
    · have hstep : step (z :: place) name = z :: (place ++ [name]) := if_neg hup
      have hbelow : stepBelow? place name = some (place ++ [name]) := if_neg hup
      rw [hbelow] at h
      rw [hstep]
      exact ih h (by simpa using ⟨hplace, hne⟩) hrest

theorem exists_below? {names : List String} (h : ∀ z, z ≠ ".." → ∃ rest, names.foldl step [z] = [z] ++ rest) :
    ∃ place, below? names = some place := by
  cases hbelow : below? names with
  | some place => exact ⟨place, rfl⟩
  | none =>
    -- A directory whose name does not occur among the names is left for good.
    obtain ⟨z, hz⟩ := Infinite.exists_notMem_finset (".." :: names).toFinset
    obtain ⟨hup, hfresh⟩ : z ≠ ".." ∧ z ∉ names := by simpa using hz
    obtain ⟨rest, hrest⟩ := h z hup
    have hleft := not_mem_of_below?_eq_none hbelow List.not_mem_nil hfresh
    rw [hrest] at hleft
    exact absurd (by simp) hleft

end Path

/-! ## Directories that are not entered -/

theorem mem_eraseDupsBy {α : Type} {same : α → α → Bool} {x : α} (hx : ∀ y, same x y = true → y = x) (xs : List α) :
    x ∈ xs.eraseDupsBy same ↔ x ∈ xs := by
  have hloop : ∀ seen : List α, x ∈ List.eraseDupsBy.loop same xs seen ↔ x ∈ xs ∨ x ∈ seen := by
    induction xs with
    | nil => intro seen; simp [List.eraseDupsBy.loop]
    | cons first rest ih =>
      intro seen
      rw [List.eraseDupsBy.loop]
      cases hany : seen.any (same first) with
      | false =>
        simp only [ih, List.mem_cons]
        tauto
      | true =>
        simp only [ih, List.mem_cons]
        constructor
        · rintro (h | h)
          · exact .inl (.inr h)
          · exact .inr h
        · rintro ((rfl | h) | h)
          · obtain ⟨y, hy, hsame⟩ := List.any_eq_true.1 hany
            exact .inr (hx y hsame ▸ hy)
          · exact .inl h
          · exact .inr h
  simpa [List.eraseDupsBy] using hloop []

theorem Datum.eq_string_of_sameKey {s : String} {v : Json}
    (h : (Datum.ofJson (.string s)).sameKey (Datum.ofJson v) = true) : v = .string s := by
  cases v with
  | string t => simpa [Datum.ofJson, Datum.sameKey, eq_comm] using h
  | null => cases h
  | bool b => cases h
  | int n => cases h
  | real x => cases h
  | array items => cases h
  | object members => cases h

namespace Config

variable {c : Config}

theorem check_eq_ok :
    c.check = .ok () ↔ isBelowOne c.jobs = .ok false ∧ c.eslintCommand.isTruthy = true ∧
      isNonpositive c.eslintTimeout = .ok false ∧ checkReportDir c.reportDir = .ok () := by
  unfold check
  cases hjobs : isBelowOne c.jobs with
  | error fault => simp [bind, Except.bind]
  | ok few =>
    cases few with
    | true => simp [bind, Except.bind, throw, throwThe, MonadExceptOf.throw]
    | false =>
      cases hcommand : c.eslintCommand.isTruthy with
      | false => simp [bind, Except.bind, throw, throwThe, MonadExceptOf.throw]
      | true =>
        cases htimeout : isNonpositive c.eslintTimeout with
        | error fault => simp [bind, Except.bind]
        | ok short => cases short <;> simp [bind, Except.bind, throw, throwThe, MonadExceptOf.throw]

/-- The report directory of a configuration that passes the checks is a relative path. -/
theorem check_reportDir (h : c.check = .ok ()) : (Path.ofString c.reportDirText).isAbsolute = false := by
  obtain ⟨-, -, -, hdir⟩ := check_eq_ok.1 h
  unfold reportDirText
  unfold checkReportDir at hdir
  cases hv : c.reportDir with
  | string s =>
    rw [hv] at hdir
    simp only at hdir ⊢
    split at hdir
    · cases hdir
    · next hgood => simpa using (Bool.or_eq_false_iff.1 (Bool.eq_false_of_not_eq_true hgood)).2
  | _ =>
    have hempty : (Path.ofString "").isAbsolute = false := by decide +kernel
    exact hempty

theorem ignored_eq {first : String} {rest : List String} {extras : List Json}
    (hnames : (Path.ofString c.reportDirText).names = first :: rest)
    (hextras : namesOf c.extraIgnoreDirs = .ok extras) :
    c.ignored = .ok ((defaultIgnoredDirs.map Json.string ++ extras ++ [Json.string first]).eraseDupsBy
      fun a b => (Datum.ofJson a).sameKey (Datum.ofJson b)) := by
  unfold ignored
  rw [hnames]
  exact bind_eq_ok.2 ⟨extras, hextras, rfl⟩

/-- There are directories that are not entered exactly if the report directory has a name and the further names can be
listed. -/
theorem exists_ignoredDirs :
    (∃ dirs, c.ignoredDirs = .ok dirs) ↔
      (Path.ofString c.reportDirText).names ≠ [] ∧ ∃ extras, namesOf c.extraIgnoreDirs = .ok extras := by
  constructor
  · rintro ⟨dirs, h⟩
    unfold ignoredDirs ignored at h
    cases hnames : (Path.ofString c.reportDirText).names with
    | nil => rw [hnames] at h; cases h
    | cons first rest =>
      rw [hnames] at h
      cases hextras : namesOf c.extraIgnoreDirs with
      | error fault => rw [hextras] at h; cases h
      | ok extras => exact ⟨List.cons_ne_nil _ _, extras, rfl⟩
  · rintro ⟨hne, extras, hextras⟩
    obtain ⟨first, rest, hnames⟩ := List.exists_cons_of_ne_nil hne
    rw [ignoredDirs, ignored_eq hnames hextras]
    exact ⟨_, rfl⟩

/-- The directories that are not entered: the usual ones, further ones, and the first one on the way to the report. -/
theorem mem_ignoredDirs {dirs : List String} {extras : List Json} (h : c.ignoredDirs = .ok dirs)
    (hextras : namesOf c.extraIgnoreDirs = .ok extras) (name : String) :
    name ∈ dirs ↔ name ∈ defaultIgnoredDirs ∨ .string name ∈ extras ∨
      (Path.ofString c.reportDirText).names.head? = some name := by
  obtain ⟨first, rest, hnames⟩ := List.exists_cons_of_ne_nil (exists_ignoredDirs.1 ⟨dirs, h⟩).1
  rw [ignoredDirs, ignored_eq hnames hextras] at h
  cases h
  have hkept : Json.string name ∈ (defaultIgnoredDirs.map Json.string ++ extras ++ [Json.string first]).eraseDupsBy
        (fun a b => (Datum.ofJson a).sameKey (Datum.ofJson b)) ↔
      Json.string name ∈ defaultIgnoredDirs.map Json.string ++ extras ++ [Json.string first] :=
    mem_eraseDupsBy (fun v hv => Datum.eq_string_of_sameKey hv) _
  rw [hnames, List.head?_cons, List.mem_filterMap]
  constructor
  · rintro ⟨v, hv, htext⟩
    cases v with
    | string s =>
      cases htext
      have := hkept.1 hv
      simp only [List.mem_append, List.mem_map, Json.string.injEq, exists_eq_right, List.mem_singleton] at this
      rcases this with (hd | he) | hf
      · exact .inl hd
      · exact .inr (.inl he)
      · exact .inr (.inr (congrArg some hf.symm))
    | _ => cases htext
  · intro hname
    refine ⟨.string name, hkept.2 ?_, rfl⟩
    simp only [List.mem_append, List.mem_map, Json.string.injEq, exists_eq_right, List.mem_singleton]
    rcases hname with hd | he | hf
    · exact .inl (.inl hd)
    · exact .inl (.inr he)
    · exact .inr (Option.some.inj hf).symm

end Config

/-! ## Report directories that stay inside -/

/-- A place strictly below a root, under a name that is among some. -/
def Place.IsCovered (dirs : List String) (root place : Place) : Prop :=
  ∃ first rest, place = root ++ first :: rest ∧ first ∈ dirs

/-- **Report directories that stay inside.** For a configuration that passes the checks, the directories that are not
entered are known and the report directory of every root, with its dots carried out, lies strictly below the root under
the name of one of them, exactly if three things hold: the further names can be listed; the names of the report
directory never lead above the root; and they lead to a place whose first name is a usual one, a further one or the
first one of their own. This is so whenever the report directory has a name and no double dot. -/
theorem Config.reportDir_confined_iff (c : Config) (h : c.check = .ok ()) :
    let names := (Path.ofString c.reportDirText).names
    let isConfined := ∃ dirs, c.ignoredDirs = .ok dirs ∧ ∀ (current : Place) (root : Path),
      Place.IsCovered dirs (root.lexical current) ((root.join (.ofString c.reportDirText)).lexical current)
    (isConfined ↔ ∃ extras first rest, namesOf c.extraIgnoreDirs = .ok extras ∧
      Path.below? names = some (first :: rest) ∧
      (first ∈ defaultIgnoredDirs ∨ .string first ∈ extras ∨ names.head? = some first)) ∧
    ((∃ extras, namesOf c.extraIgnoreDirs = .ok extras) → names ≠ [] → ".." ∉ names → isConfined) := by
  intro names isConfined
  have hrelative := check_reportDir h
  have hiff : isConfined ↔ ∃ extras first rest, namesOf c.extraIgnoreDirs = .ok extras ∧
      Path.below? names = some (first :: rest) ∧
      (first ∈ defaultIgnoredDirs ∨ .string first ∈ extras ∨ names.head? = some first) := by
    simp only [isConfined, Path.lexical_join _ _ hrelative]
    constructor
    · rintro ⟨dirs, hdirs, hcovered⟩
      obtain ⟨-, extras, hextras⟩ := exists_ignoredDirs.1 ⟨dirs, hdirs⟩
      have hbelow : ∃ place, Path.below? names = some place := by
        refine Path.exists_below? fun z hz => ?_
        obtain ⟨first, rest, hplace, -⟩ := hcovered [] ⟨"/", [z]⟩
        have hroot : Path.lexical [] ⟨"/", [z]⟩ = [z] := if_neg hz
        rw [hroot] at hplace
        exact ⟨first :: rest, hplace⟩
      obtain ⟨place, hplace⟩ := hbelow
      obtain ⟨first, rest, htop, hfirst⟩ := hcovered [] ⟨"/", []⟩
      have hroot : Path.lexical [] ⟨"/", []⟩ = [] := rfl
      have hsame : place = first :: rest := by
        rw [hroot, List.nil_append] at htop
        rw [← htop]
        exact (Path.foldl_step_of_below? [] hplace).symm
      exact ⟨extras, first, rest, hextras, hsame ▸ hplace, (mem_ignoredDirs hdirs hextras first).1 hfirst⟩
    · rintro ⟨extras, first, rest, hextras, hbelow, hfirst⟩
      have hne : names ≠ [] := by
        intro hnil
        rw [hnil] at hbelow
        cases hbelow
      obtain ⟨dirs, hdirs⟩ := exists_ignoredDirs.2 ⟨hne, extras, hextras⟩
      refine ⟨dirs, hdirs, fun current root => ⟨first, rest, ?_, (mem_ignoredDirs hdirs hextras first).2 hfirst⟩⟩
      have hplace := Path.foldl_step_of_below? (root.lexical current) hbelow
      rwa [List.append_nil] at hplace
  refine ⟨hiff, ?_⟩
  rintro ⟨extras, hextras⟩ hne hup
  obtain ⟨first, rest, hnames⟩ := List.exists_cons_of_ne_nil hne
  refine hiff.2 ⟨extras, first, rest, hextras, ?_, .inr (.inr (by rw [hnames, List.head?_cons]))⟩
  rw [Path.below?_of_no_dots hup, hnames]

theorem Config.check_of_reportDir {s : String} (h : (s = "" || (Path.ofString s).isAbsolute) = false) :
    ({ reportDir := .string s } : Config).check = .ok () :=
  check_eq_ok.2 ⟨rfl, rfl, rfl, if_neg (by rw [h]; exact Bool.false_ne_true)⟩

/-- A report directory that is nested and written with more dots and slashes than it needs stays inside. -/
theorem Config.reportDir_confined_iff_nested :
    let c : Config := { reportDir := .string "out/.//latest" }
    c.check = .ok () ∧ (Path.ofString c.reportDirText).names = ["out", "latest"] ∧
      ∃ dirs, c.ignoredDirs = .ok dirs ∧ ∀ (current : Place) (root : Path),
        Place.IsCovered dirs (root.lexical current) ((root.join (.ofString c.reportDirText)).lexical current) := by
  intro c
  have hcheck : c.check = .ok () := check_of_reportDir (by decide +kernel)
  have hnames : (Path.ofString c.reportDirText).names = ["out", "latest"] := by decide +kernel
  refine ⟨hcheck, hnames, (Config.reportDir_confined_iff c hcheck).2 ⟨[], rfl⟩ ?_ ?_⟩
  · rw [hnames]
    exact List.cons_ne_nil _ _
  · rw [hnames]
    decide

/-- Report directories that pass the checks and do not stay inside: with a single dot there is no list of directories
that are not entered, a double dot leads above the root, and behind a name that is taken back the report goes to a
directory that is entered. -/
theorem Config.reportDir_strays :
    let c := fun s => ({ reportDir := .string s } : Config)
    let root : Path := ⟨"/", ["home", "r"]⟩
    ((c ".").check = .ok () ∧ ∀ dirs, (c ".").ignoredDirs ≠ .ok dirs) ∧
    ((c "..").check = .ok () ∧ (root.join (.ofString "..")).lexical [] = ["home"]) ∧
    (c "out/../src").check = .ok () ∧ (root.join (.ofString "out/../src")).lexical [] = ["home", "r", "src"] ∧
      ∃ dirs, (c "out/../src").ignoredDirs = .ok dirs ∧ "out" ∈ dirs ∧ "src" ∉ dirs := by
  intro c root
  have hnone : (Path.ofString (c ".").reportDirText).names = [] := by decide +kernel
  have hnames : (Path.ofString (c "out/../src").reportDirText).names = ["out", "..", "src"] := by decide +kernel
  have hextras : namesOf (c "out/../src").extraIgnoreDirs = .ok [] := rfl
  have hne : (Path.ofString (c "out/../src").reportDirText).names ≠ [] := by
    rw [hnames]
    exact List.cons_ne_nil _ _
  obtain ⟨dirs, hdirs⟩ := exists_ignoredDirs.2 ⟨hne, [], hextras⟩
  have hmem := mem_ignoredDirs hdirs hextras
  rw [hnames] at hmem
  refine ⟨⟨check_of_reportDir (by decide +kernel), fun dirs h => (exists_ignoredDirs.1 ⟨dirs, h⟩).1 hnone⟩,
    ⟨check_of_reportDir (by decide +kernel), by decide +kernel⟩, check_of_reportDir (by decide +kernel),
    by decide +kernel, dirs, hdirs, (hmem "out").2 (.inr (.inr rfl)), fun h => ?_⟩
  rcases (hmem "src").1 h with husual | hfurther | hfirst
  · exact absurd husual (by decide +kernel)
  · cases hfurther
  · exact absurd hfirst (by decide +kernel)

end SourceAudit
