import SourceAudit.Proofs.Audit.LinterFailure
import SourceAudit.Proofs.Linter.Translation

/-!
# The order of a linter's entries makes no difference

A linter may answer about the files in any order. The report on an answer is a map from names to outcomes, and if no
file is answered about twice, the map is the same for every order. The result of a concern takes the outcomes by the
order of its candidates, so it is the same too, apart from the order of the notes.

Results:
* `Linter.report_answering`: what is in the report on an answer.
* `Linter.Question.mem_judged`, `Linter.Question.notes`: which entries give outcomes, and which give notes.
* `Profile.resultOf_congr`: a result depends on the map of the linter's report alone.
* `Linter.entries_translated`: an answer is translated exactly, in whatever order its entries come.
-/
namespace SourceAudit

open Disk (Candidate)
open Fallible

namespace Linter

variable {l : Linter} {resolve : Path → Except Disk.ResolveFault Path} {calls : Nat} {files : List (Path × String)}
  {paths : List Path} {entries entries' : List LintJson}

/-- The same linter with a fixed answer. -/
def answering (l : Linter) (entries : List LintJson) : Linter :=
  l.withRun fun _ asked => { entries := .ok entries, calls := [asked] }

/-- A question about files whose resolved paths and whose names differ. -/
structure Question (resolve : Path → Except Disk.ResolveFault Path) (files : List (Path × String))
    (paths : List Path) : Prop where
  resolved : files.mapM (fun f => resolve f.1) = .ok paths
  paths : (paths.map (·.toString)).Nodup
  names : (files.map (·.2)).Nodup
  named : ∀ f ∈ files, f.2 ≠ ""

/-- An answer to a question about some resolved paths: its entries have the right form, and each path that was asked
about has one at most. -/
structure Reply (resolve : Path → Except Disk.ResolveFault Path) (paths : List Path) (entries : List LintJson) :
    Prop where
  form : ∀ e ∈ entries, isEntry resolve e = true
  once : ∀ path ∈ paths, entries.countP (fun e => entryPath? resolve e = some path.toString) ≤ 1

theorem Reply.perm (h : Reply resolve paths entries) (hperm : entries.Perm entries') :
    Reply resolve paths entries' where
  form e he := h.form e (hperm.mem_iff.2 he)
  once path hpath := (hperm.countP_eq _) ▸ h.once path hpath

theorem Reply.nodup_judged (h : Reply resolve paths entries) (hlength : paths.length = files.length)
    (hnames : (files.map (·.2)).Nodup) :
    ((entries.filterMap (l.judged? resolve (namesAt paths files))).map (·.1)).Nodup := by
  refine Linter.nodup_judged (fun _ _ _ => path_of_name hlength hnames) fun path relative hlookup => ?_
  obtain ⟨p, hp, rfl⟩ := List.mem_map.1 (List.of_mem_zip (mem_of_lookup_namesAt hlookup)).1
  exact h.once p hp

/-- The report on a fixed answer. -/
theorem report_answering (l : Linter) (calls : Nat) (hresolved : files.mapM (fun f => resolve f.1) = .ok paths)
    (hnames : (files.map (·.2)).Nodup) (hnamed : ∀ f ∈ files, f.2 ≠ "") (h : Reply resolve paths entries) :
    ((l.answering entries).lint resolve calls files).report = .ok
      { outcomes := entries.filterMap (l.judged? resolve (namesAt paths files))
        notes := entries.filterMap (l.note? resolve (namesAt paths files)) } := by
  have hlength : paths.length = files.length := (mapM_eq_ok.1 hresolved).length_eq.symm
  have hreport : ((l.answering entries).lint resolve calls files).report = .ok _ :=
    report_of_entries hresolved hnamed rfl h.form
  have hnodup := h.nodup_judged (l := l.answering entries) hlength hnames
  rw [Association.ofPairs_of_nodup hnodup] at hreport
  exact hreport

theorem Question.length_eq (h : Question resolve files paths) : paths.length = files.length :=
  (mapM_eq_ok.1 h.resolved).length_eq.symm

theorem Question.lookup_namesAt (h : Question resolve files paths) {path relative : String} :
    (namesAt paths files).lookup path = some relative ↔
      ∃ x ∈ paths.zip files, path = x.1.toString ∧ relative = x.2.2 := by
  have hkeys : (((paths.map (·.toString)).zip (files.map (·.2))).map (·.1)).Nodup := by
    rw [List.map_fst_zip (by simp [h.length_eq])]
    exact h.paths
  rw [namesAt, Association.ofPairs_of_nodup hkeys, Association.lookup_eq_some_iff_mem hkeys, List.zip_map,
    List.mem_map]
  constructor
  · rintro ⟨x, hx, heq⟩
    cases heq
    exact ⟨x, hx, rfl, rfl⟩
  · rintro ⟨x, hx, rfl, rfl⟩
    exact ⟨x, hx, rfl⟩

theorem Question.nameOf?_eq_some (h : Question resolve files paths) {e : LintJson} {relative : String} :
    nameOf? resolve (namesAt paths files) e = some relative ↔
      ∃ x ∈ paths.zip files, entryPath? resolve e = some x.1.toString ∧ relative = x.2.2 := by
  simp only [nameOf?, Option.bind_eq_some_iff, h.lookup_namesAt]
  constructor
  · rintro ⟨path, hpath, x, hx, rfl, rfl⟩
    exact ⟨x, hx, hpath, rfl⟩
  · rintro ⟨x, hx, hpath, rfl⟩
    exact ⟨_, hpath, x, hx, rfl, rfl⟩

/-- The files judged are those with an entry that is not fatal, each with what the entry comes to. -/
theorem Question.mem_judged (h : Question resolve files paths) {name : String} {outcome : Outcome} :
    (name, outcome) ∈ entries.filterMap (l.judged? resolve (namesAt paths files)) ↔
      ∃ e ∈ entries, ∃ x ∈ paths.zip files, entryPath? resolve e = some x.1.toString ∧ e.fatal? = none ∧
        name = x.2.2 ∧ outcome = l.outcomeOn name e := by
  rw [List.mem_filterMap]
  refine exists_congr fun e => and_congr_right fun _ => ?_
  unfold judged?
  constructor
  · intro hj
    split at hj
    · next relative hname hfatal =>
      cases hj
      obtain ⟨x, hx, hpath, rfl⟩ := h.nameOf?_eq_some.1 hname
      exact ⟨x, hx, hpath, hfatal, rfl, rfl⟩
    · cases hj
  · rintro ⟨x, hx, hpath, hfatal, rfl, rfl⟩
    rw [h.nameOf?_eq_some.2 ⟨x, hx, hpath, rfl⟩, hfatal]

theorem Question.note?_eq_some (h : Question resolve files paths) {e : LintJson} {note : String} :
    l.note? resolve (namesAt paths files) e = some note ↔
      ∃ x ∈ paths.zip files, ∃ fatal, entryPath? resolve e = some x.1.toString ∧ e.fatal? = some fatal ∧
        note = l.parseNote x.2.2 fatal := by
  unfold note?
  constructor
  · intro hn
    split at hn
    · next relative fatal hname hfatal =>
      cases hn
      obtain ⟨x, hx, hpath, rfl⟩ := h.nameOf?_eq_some.1 hname
      exact ⟨x, hx, fatal, hpath, hfatal, rfl⟩
    · cases hn
  · rintro ⟨x, hx, fatal, hpath, hfatal, rfl⟩
    rw [h.nameOf?_eq_some.2 ⟨x, hx, hpath, rfl⟩, hfatal]

theorem Question.isSome_note? (h : Question resolve files paths) (e : LintJson) :
    (l.note? resolve (namesAt paths files) e).isSome =
      (e.fatal?.isSome && paths.any fun p => entryPath? resolve e = some p.toString) := by
  have hpaths : paths = (paths.zip files).map (·.1) := (List.map_fst_zip (Nat.le_of_eq h.length_eq)).symm
  rw [Bool.eq_iff_iff, Bool.and_eq_true, Option.isSome_iff_exists, Option.isSome_iff_exists, List.any_eq_true]
  simp only [h.note?_eq_some, decide_eq_true_eq]
  constructor
  · rintro ⟨-, x, hx, fatal, hpath, hfatal, rfl⟩
    exact ⟨⟨fatal, hfatal⟩, x.1, (List.of_mem_zip hx).1, hpath⟩
  · rintro ⟨⟨fatal, hfatal⟩, p, hp, hpath⟩
    rw [hpaths] at hp
    obtain ⟨x, hx, rfl⟩ := List.mem_map.1 hp
    exact ⟨_, x, hx, fatal, hpath, hfatal, rfl⟩

/-- The notes are those for the fatal entries about files asked about, one for each. -/
theorem Question.notes (h : Question resolve files paths) (entries : List LintJson) :
    List.Forall₂ (fun e note => ∃ x ∈ paths.zip files, ∃ fatal, entryPath? resolve e = some x.1.toString ∧
        e.fatal? = some fatal ∧ note = l.parseNote x.2.2 fatal)
      (entries.filter fun e => e.fatal?.isSome && paths.any fun p => entryPath? resolve e = some p.toString)
      (entries.filterMap (l.note? resolve (namesAt paths files))) := by
  simp only [← h.isSome_note? (l := l), ← h.note?_eq_some]
  induction entries with
  | nil => exact .nil
  | cons e rest ih =>
    cases hn : l.note? resolve (namesAt paths files) e with
    | none => rwa [List.filter_cons_of_neg (by simp [hn]), List.filterMap_cons_none hn]
    | some note =>
      rw [List.filter_cons_of_pos (by simp [hn]), List.filterMap_cons_some hn]
      exact .cons hn ih

end Linter

/-- A result depends on the map of the linter's report alone, apart from the notes. -/
theorem Profile.resultOf_congr (p : Profile) (files : List EvaluatedFile) {report report' : LintReport}
    (h : ∀ name, report'.outcomes.lookup name = report.outcomes.lookup name) (failed : Bool) :
    let result := p.resultOf files report failed
    let result' := p.resultOf files report' failed
    result'.findings = result.findings ∧ result'.passedChecks = result.passedChecks ∧
      result'.rulesEvaluated = result.rulesEvaluated ∧ result'.state = result.state := by
  have hown : (fun f : EvaluatedFile => f.contribution p.linterName report'.outcomes) =
      fun f => f.contribution p.linterName report.outcomes := by
    funext f
    unfold EvaluatedFile.contribution
    cases f.2 with
    | delegated => simp only [h]
    | _ => rfl
  simp only [resultOf, hown, true_and]
  rfl

theorem Profile.names_delegatedFiles {p : Profile} {d : Disk} (hp : d.root.isProper = true) (ignored : List String)
    (root : Path) (filter : FileFilter) :
    ((p.delegatedFiles d (d.candidates ignored root filter)).map (·.2)).Nodup ∧
      ∀ f ∈ p.delegatedFiles d (d.candidates ignored root filter), f.2 ≠ "" := by
  constructor
  · rw [delegatedFiles, List.map_map]
    exact (Disk.nodup_relatives hp).sublist (List.filter_sublist.map _)
  · intro f hf
    obtain ⟨c, hc, rfl⟩ := List.mem_map.1 hf
    exact Disk.relative_ne_empty hp (List.mem_filter.1 hc).1

theorem Audit.runConcern_answering {l : Linter} {d : Disk} {ignored : List String} {root : Path} {calls : Nat}
    {entries : List LintJson} {paths : List Path} (hp : d.root.isProper = true) (hroot : d.isDir root = true) :
    let p := Registry.profileOf (some l) .sanitization
    let candidates := d.candidates ignored root p.filter
    let files := p.delegatedFiles d candidates
    files.mapM (fun f => d.resolve f.1) = .ok paths → Linter.Reply d.resolve paths entries →
    (runConcern { registry := .standard (some (l.answering entries)), disk := d, ignoredDirs := ignored } calls root
      .sanitization).outcome = .ok (if candidates = [] then .notApplicable .sanitization
        else p.resultOf (p.evaluated d candidates)
          { outcomes := entries.filterMap (l.judged? d.resolve (Linter.namesAt paths files))
            notes := entries.filterMap (l.note? d.resolve (Linter.namesAt paths files)) } false) := by
  intro p candidates files hresolved hreply
  by_cases hne : candidates = []
  · rw [if_pos hne]
    exact runConcern_eq_ok.2 ⟨hroot, _, Registry.find?_standard _ _, .inl ⟨hne, rfl⟩⟩
  · rw [if_neg hne]
    obtain ⟨hnames, hnamed⟩ := p.names_delegatedFiles hp ignored root p.filter
    have hreport := Linter.report_answering l calls hresolved hnames hnamed hreply
    exact runConcern_of_lint hp hne (lint_of_report hreport)

/-- **A linter's answer is translated exactly, in whatever order its entries come.** Ask about files with different
names and different resolved paths, and let the entries have the right form, with at most one for each file. Then there
is a report. It has an outcome for just those files that have an entry which is not fatal: the findings for its
messages, or one passed check. It has one note for each fatal entry about a file asked about, and nothing for other
entries. With the entries in another order the outcome of each name is the same, and so are the findings, passed checks,
rules evaluated and state of a concern whose files are left to the linter. -/
theorem Linter.entries_translated (l : Linter) (calls : Nat) (entries : List LintJson) :
    (∀ resolve files paths, Question resolve files paths → Reply resolve paths entries →
      ∃ report, ((l.answering entries).lint resolve calls files).report = .ok report ∧
        (report.outcomes.map (·.1)).Nodup ∧
        (∀ name outcome, (name, outcome) ∈ report.outcomes ↔
          ∃ e ∈ entries, ∃ x ∈ paths.zip files, entryPath? resolve e = some x.1.toString ∧ e.fatal? = none ∧
            name = x.2.2 ∧ outcome = l.outcomeOn name e) ∧
        List.Forall₂ (fun e note => ∃ x ∈ paths.zip files, ∃ fatal, entryPath? resolve e = some x.1.toString ∧
            e.fatal? = some fatal ∧ note = l.parseNote x.2.2 fatal)
          (entries.filter fun e => e.fatal?.isSome && paths.any fun p => entryPath? resolve e = some p.toString)
          report.notes ∧
        ∀ entries', entries.Perm entries' →
          ∃ report', ((l.answering entries').lint resolve calls files).report = .ok report' ∧
            (∀ name, report'.outcomes.lookup name = report.outcomes.lookup name) ∧
            report'.notes.Perm report.notes) ∧
    (∀ (d : Disk) (ignored : List String) (root : Path) (paths : List Path),
      let p := Registry.profileOf (some l) .sanitization
      let run := fun answer => Audit.runConcern
        { registry := .standard (some (l.answering answer)), disk := d, ignoredDirs := ignored } calls root
        .sanitization
      d.root.isProper = true → d.isDir root = true →
      (p.delegatedFiles d (d.candidates ignored root p.filter)).mapM (fun f => d.resolve f.1) = .ok paths →
      Reply d.resolve paths entries →
      ∃ result, (run entries).outcome = .ok result ∧
        ∀ entries', entries.Perm entries' →
          ∃ result', (run entries').outcome = .ok result' ∧
            result'.findings = result.findings ∧ result'.passedChecks = result.passedChecks ∧
            result'.rulesEvaluated = result.rulesEvaluated ∧ result'.state = result.state ∧
            result'.notes.Perm result.notes) := by
  constructor
  · intro resolve files paths hq hr
    have hreport := fun answer (h : Reply resolve paths answer) =>
      report_answering l calls hq.resolved hq.names hq.named h
    have hnodup := hr.nodup_judged (l := l) hq.length_eq hq.names
    refine ⟨_, hreport entries hr, hnodup, fun _ _ => hq.mem_judged, hq.notes entries, fun entries' hperm => ?_⟩
    refine ⟨_, hreport entries' (hr.perm hperm), fun name => ?_, (hperm.filterMap _).symm⟩
    exact (Association.lookup_of_perm (hperm.filterMap _) hnodup name).symm
  · intro d ignored root paths p run hp hroot hresolved hr
    let files := p.delegatedFiles d (d.candidates ignored root p.filter)
    let report := fun answer : List LintJson => ({
      outcomes := answer.filterMap (l.judged? d.resolve (namesAt paths files))
      notes := answer.filterMap (l.note? d.resolve (namesAt paths files)) } : LintReport)
    have hnodup : ((report entries).outcomes.map (·.1)).Nodup :=
      hr.nodup_judged (mapM_eq_ok.1 hresolved).length_eq.symm (p.names_delegatedFiles hp ignored root p.filter).1
    refine ⟨_, Audit.runConcern_answering hp hroot hresolved hr, fun entries' hperm => ?_⟩
    refine ⟨_, Audit.runConcern_answering hp hroot hresolved (hr.perm hperm), ?_⟩
    by_cases hne : d.candidates ignored root p.filter = []
    · rw [if_pos hne, if_pos hne]
      exact ⟨rfl, rfl, rfl, rfl, .rfl⟩
    · rw [if_neg hne, if_neg hne]
      have hsame : ∀ name, (report entries').outcomes.lookup name = (report entries).outcomes.lookup name := fun name =>
        (Association.lookup_of_perm (hperm.filterMap _) hnodup name).symm
      obtain ⟨hfindings, hchecks, hrules, hstate⟩ :=
        p.resultOf_congr (p.evaluated d (d.candidates ignored root p.filter)) hsame false
      exact ⟨hfindings, hchecks, hrules, hstate, (hperm.filterMap _).symm⟩

/-! ## An answer of all kinds of entries -/

/-- A tree of three scripts. -/
def scripts : Disk where
  root := .dir [("r", .dir [
    ("a.js", .file (Text.Utf8.encode "1".toList)),
    ("b.js", .file (Text.Utf8.encode "eval(x)".toList)),
    ("c.js", .file (Text.Utf8.encode ")".toList))])]

/-- The scripts with their names. -/
def scriptFiles : List (Path × String) :=
  [(⟨"/", ["r", "a.js"]⟩, "a.js"), (⟨"/", ["r", "b.js"]⟩, "b.js"), (⟨"/", ["r", "c.js"]⟩, "c.js")]

/-- An answer about the scripts, in another order: one could not be parsed, one has a finding between messages that come
to nothing, one has no messages, and one more entry is about a file that was not asked about. -/
def scriptEntries : List LintJson := [
  .object [("filePath", .string (.text "/r/c.js")), ("messages", .array [
    .object [("fatal", .bool true), ("message", .string (.text "Unexpected token )"))]])],
  .object [("filePath", .string (.text "/r/./b.js")), ("messages", .array [
    .string (.text "noise"), .object [("ruleId", .string (.text "semi"))],
    .object [("ruleId", .string (.text "no-eval")), ("line", .string (.text "first")), ("column", .int 7)]])],
  .object [("filePath", .string (.text "/r/other.js")), ("messages", .array [.object [("fatal", .bool true)]])],
  .object [("filePath", .string (.text "/r/a.js")), ("messages", .array [])]]

theorem question_scripts : Linter.Question scripts.resolve scriptFiles (scriptFiles.map (·.1)) where
  resolved := by decide +kernel
  paths := by decide +kernel
  names := by decide +kernel
  named := by decide +kernel

theorem reply_scripts : Linter.Reply scripts.resolve (scriptFiles.map (·.1)) scriptEntries where
  form := by decide +kernel
  once := by decide +kernel

/-- The answer gives one finding, one passed check and one note, and turned around it gives the same. -/
theorem Linter.entries_translated_scripts :
    Question scripts.resolve scriptFiles (scriptFiles.map (·.1)) ∧
    Reply scripts.resolve (scriptFiles.map (·.1)) scriptEntries ∧
    (∃ report, ((alarmLinter.answering scriptEntries).lint scripts.resolve 0 scriptFiles).report = .ok report ∧
      ("a.js", alarmLinter.outcomeOn "a.js"
          (.object [("filePath", .string (.text "/r/a.js")), ("messages", .array [])])) ∈
        report.outcomes ∧
      report.notes.length = 1 ∧
      ∃ report', ((alarmLinter.answering scriptEntries.reverse).lint scripts.resolve 0 scriptFiles).report =
          .ok report' ∧
        report'.outcomes.lookup "b.js" = report.outcomes.lookup "b.js") ∧
    ∃ result result',
      (Audit.runConcern { registry := .standard (some (alarmLinter.answering scriptEntries)), disk := scripts }
        0 ⟨"/", ["r"]⟩ .sanitization).outcome = .ok result ∧
      (Audit.runConcern { registry := .standard (some (alarmLinter.answering scriptEntries.reverse)), disk := scripts }
        0 ⟨"/", ["r"]⟩ .sanitization).outcome = .ok result' ∧
      result'.findings = result.findings ∧ result'.state = result.state := by
  obtain ⟨htranslated, hrun⟩ := Linter.entries_translated alarmLinter 0 scriptEntries
  obtain ⟨report, hreport, -, houtcomes, hnotes, hreordered⟩ :=
    htranslated scripts.resolve scriptFiles (scriptFiles.map (·.1)) question_scripts reply_scripts
  obtain ⟨report', hreport', hsame, -⟩ := hreordered _ (List.reverse_perm _).symm
  obtain ⟨result, hresult, hreordered⟩ := hrun scripts defaultIgnoredDirs ⟨"/", ["r"]⟩ (scriptFiles.map (·.1))
    (by decide +kernel) (by decide +kernel) (by decide +kernel) reply_scripts
  obtain ⟨result', hresult', hfindings, -, -, hstate, -⟩ := hreordered _ (List.reverse_perm _).symm
  refine ⟨question_scripts, reply_scripts, ⟨report, hreport, ?_, ?_, report', hreport', hsame _⟩, result, result',
    hresult, hresult', hfindings, hstate⟩
  · exact (houtcomes _ _).2 ⟨_, by simp [scriptEntries], (⟨"/", ["r", "a.js"]⟩, (⟨"/", ["r", "a.js"]⟩, "a.js")),
      by decide +kernel, by decide +kernel, rfl, rfl, rfl⟩
  · rw [← hnotes.length_eq]
    decide +kernel

/-- A message whose rule has no name is passed over even where the profile lists such a rule, and one entry whose path
cannot be resolved breaks off the linting of all files. -/
theorem Linter.nameless_rule_passed_over :
    let l : Linter := { alarmLinter with profile := [("", .high, "fix")] }
    (l.profile.lookup "" = some (.high, "fix") ∧
      ((l.answering [.object [("filePath", .string (.text "/r/a.js")), ("messages", .array [
          .object [("ruleId", .string (.text "")), ("message", .string (.text "m")),
            ("line", .int 3)]])]]).lint scripts.resolve 0
        [(⟨"/", ["r", "a.js"]⟩, "a.js")]).report.toOption = some { outcomes := [("a.js", { passedChecks := [{
          file := "a.js", message := "No unsafe sinks reported by eslint.", category := .sanitization,
          rule := "eslint" }] })] }) ∧
    ((alarmLinter.answering [.object [("filePath", .string (.text "/r/a.js")), ("messages", .array [])],
        .object [("filePath", .string (.text "x\u0000.js")), ("messages", .array [])]]).lint scripts.resolve 0
      [(⟨"/", ["r", "a.js"]⟩, "a.js")]).report.toOption = none := by
  decide +kernel

end SourceAudit
