import SourceAudit.Proofs.Audit.EntryOrder

/-!
# Files left to the linter are accounted for

A linter is asked about resolved paths, while the candidates of a concern are known by their names in the tree. A linter
that answers about each path it was asked about therefore accounts for each file, but under one name only: where two
candidates resolve to one path, as a file and a link to it do, the name of the later one stands for both, and the
earlier one is passed over in silence.

Results:
* `Linter.Covers.countP`: a full answer has one entry about each path.
* `lookup_names`: the name at the resolved path of a candidate is that of the last candidate that resolves to it.
* `Profile.restrict_resultOf_candidate`: what a result holds on a candidate is what the candidate contributes.
* `delegated_accounted`: a file left to the linter is accounted for, unless a later one resolves to the same path.
-/
namespace SourceAudit

open Disk (Candidate)
open Fallible

/-- The text that an entry gives as its path. -/
def Json.filePath? (entry : LintJson) : Option String :=
  match entry.get? "filePath" with
  | some (.string (.text s)) => some s
  | _ => none

namespace Linter

variable {resolve : Path → Except Disk.ResolveFault Path} {asked : List String} {entries : List LintJson}

/-- An answer with one entry for each path asked about, in any order, and with messages of the right form. -/
structure Covers (asked : List String) (entries : List LintJson) : Prop where
  paths : (entries.map (·.filePath?)).Perm (asked.map some)
  messages : ∀ e ∈ entries, ∃ items, e.get? "messages" = some (.array items) ∧ ∀ m ∈ items, m.isMessage = true

/-- A linter that answers each question with one entry for each path. -/
def IsThorough (l : Linter) : Prop :=
  ∀ calls asked, ∃ entries, (l.backend.run calls asked).entries = .ok entries ∧ Covers asked entries

def IsResolved (resolve : Path → Except Disk.ResolveFault Path) (path : String) : Prop :=
  path ≠ "" ∧ ∃ p, resolve (.ofString path) = .ok p ∧ p.toString = path

theorem Covers.exists_filePath (h : Covers asked entries) {e : LintJson} (he : e ∈ entries) :
    ∃ path ∈ asked, e.filePath? = some path := by
  obtain ⟨path, hpath, heq⟩ := List.mem_map.1 (h.paths.mem_iff.1 (List.mem_map_of_mem (f := (·.filePath?)) he))
  exact ⟨path, hpath, heq.symm⟩

theorem Covers.isEntry (h : Covers asked entries) (hasked : ∀ path ∈ asked, IsResolved resolve path) {e : LintJson}
    (he : e ∈ entries) : isEntry resolve e = true := by
  obtain ⟨path, hpath, hfile⟩ := h.exists_filePath he
  obtain ⟨items, hitems, hmessages⟩ := h.messages e he
  obtain ⟨-, p, hp, -⟩ := hasked path hpath
  unfold Json.filePath? at hfile
  split at hfile
  · next s hs =>
    cases hfile
    simp only [Linter.isEntry, hs, hitems, Bool.and_eq_true, Bool.or_eq_true, List.all_eq_true]
    exact ⟨.inr (by rw [pathOfText, hp]; rfl), hmessages⟩
  · cases hfile

theorem Covers.entryPath? (h : Covers asked entries) (hasked : ∀ path ∈ asked, IsResolved resolve path) {e : LintJson}
    (he : e ∈ entries) : entryPath? resolve e = e.filePath? := by
  obtain ⟨path, hpath, hfile⟩ := h.exists_filePath he
  obtain ⟨hne, p, hp, htext⟩ := hasked path hpath
  rw [hfile]
  unfold Json.filePath? at hfile
  split at hfile
  · next s hs =>
    cases hfile
    have hempty : ¬(WideText.text path).isEmpty = true := by simpa [WideText.isEmpty] using hne
    simp only [Linter.entryPath?, hs, if_neg hempty, pathOfText, hp, Except.toOption, Option.map_some, htext]
  · cases hfile

/-- A full answer has one entry about each path. -/
theorem Covers.countP (h : Covers asked entries) (hasked : ∀ path ∈ asked, IsResolved resolve path)
    (hnodup : asked.Nodup) {path : String} (hpath : path ∈ asked) :
    entries.countP (fun e => Linter.entryPath? resolve e = some path) = 1 := by
  have hcount : entries.countP (fun e => Linter.entryPath? resolve e = some path) =
      (entries.map (·.filePath?)).count (some path) := by
    rw [List.count, List.countP_map]
    refine List.countP_congr fun e he => ?_
    simp [h.entryPath? hasked he]
  rw [hcount, h.paths.count_eq]
  exact List.count_eq_one_of_mem (List.Nodup.map (fun _ _ => Option.some.inj) hnodup) (List.mem_map_of_mem hpath)

/-- The text of what a path resolves to. -/
def target (resolve : Path → Except Disk.ResolveFault Path) (p : Path) : String :=
  ((resolve p).toOption.map (·.toString)).getD ""

theorem namesAt_eq {files : List (Path × String)} {paths : List Path}
    (h : files.mapM (fun f => resolve f.1) = .ok paths) :
    namesAt paths files = Association.ofPairs (files.map fun f => (target resolve f.1, f.2)) := by
  refine congrArg Association.ofPairs ?_
  have hpairs := mapM_eq_ok.1 h
  clear h
  induction hpairs with
  | nil => rfl
  | cons hp _ ih =>
    rw [List.map_cons, List.map_cons, List.zip_cons_cons, ih, List.map_cons, target, hp]
    rfl

end Linter

/-! ## Candidates left to the linter -/

namespace Profile

variable {p : Profile} {d : Disk}

/-- Whether a candidate can be read and is left to the linter. -/
def leaves (p : Profile) (d : Disk) (c : Candidate) : Bool := c.isReadable d && p.delegates (Language.ofPath? c.path)

/-- The resolved path and the name of a candidate. -/
def asking (d : Disk) (c : Candidate) : String × String := (Linter.target d.resolve c.path, c.relative)

theorem map_delegatedFiles (candidates : List Candidate) :
    (p.delegatedFiles d candidates).map (fun f => (Linter.target d.resolve f.1, f.2)) =
      (candidates.filter (p.leaves d)).map (asking d) := by
  rw [delegatedFiles, List.map_map]
  rfl

theorem exists_place (hp : d.root.isProper = true) {c : Candidate} (hc : p.leaves d c = true) :
    ∃ place bytes, d.resolve c.path = .ok ⟨"/", place⟩ ∧ d.root.get? place = some (.file bytes) ∧
      Linter.target d.resolve c.path = Path.toString ⟨"/", place⟩ := by
  have hread := ((Bool.and_eq_true _ _).mp hc).1
  unfold Candidate.isReadable at hread
  split at hread
  · next bytes hfile =>
    obtain ⟨place, hres, hget⟩ := Disk.resolve_of_find? hp rfl hfile
    exact ⟨place, bytes, hres, hget, by rw [Linter.target, hres]; rfl⟩
  · cases hread

theorem isResolved_target (hp : d.root.isProper = true) {c : Candidate} (hc : p.leaves d c = true) :
    Linter.IsResolved d.resolve (Linter.target d.resolve c.path) := by
  obtain ⟨place, bytes, -, hget, htarget⟩ := exists_place hp hc
  rw [htarget]
  refine ⟨fun hempty => ?_, _, Disk.resolve_place hp rfl hget, rfl⟩
  have hslash : ("/" ++ "/".intercalate place).toList = [] := by rw [← String.toList_empty, ← hempty]; rfl
  rw [String.toList_append] at hslash
  cases hslash

theorem resolve_eq_of_target (hp : d.root.isProper = true) {c e : Candidate} (hc : p.leaves d c = true)
    (he : p.leaves d e = true) (h : Linter.target d.resolve e.path = Linter.target d.resolve c.path) :
    d.resolve e.path = d.resolve c.path := by
  obtain ⟨place, bytes, hres, hget, htarget⟩ := exists_place hp hc
  obtain ⟨place', bytes', hres', hget', htarget'⟩ := exists_place hp he
  have hread := Path.ofString_toString (Node.isProper_of_get? hp hget).2
  have hread' := Path.ofString_toString (Node.isProper_of_get? hp hget').2
  rw [hres, hres', ← hread, ← hread', ← htarget, ← htarget', h]

/-- The names asked about, by resolved path. -/
def names (p : Profile) (d : Disk) (candidates : List Candidate) : List (String × String) :=
  Association.ofPairs ((candidates.filter (p.leaves d)).map (asking d))

/-- Whether one of some candidates is left to the linter and resolves to the same path as another. -/
def Shadows (p : Profile) (d : Disk) (later : List Candidate) (c : Candidate) : Prop :=
  ∃ e ∈ later, p.leaves d e = true ∧ d.resolve e.path = d.resolve c.path

variable {before after : List Candidate} {c : Candidate}

/-- The name at the resolved path of a candidate is that of the last candidate that resolves to it. -/
theorem lookup_names (hc : p.leaves d c = true) :
    (p.names d (before ++ c :: after)).lookup (Linter.target d.resolve c.path) =
      ((((after.filter (p.leaves d)).map (asking d)).reverse.lookup (Linter.target d.resolve c.path)).or
        (some c.relative)) := by
  rw [names, Association.lookup_ofPairs, List.filter_append, List.filter_cons_of_pos hc, List.map_append, List.map_cons,
    List.reverse_append, List.reverse_cons, List.append_assoc, List.lookup_append]
  refine congrArg _ ?_
  rw [List.singleton_append, Association.lookup_cons, asking, if_pos rfl]

theorem lookup_names_of_not_shadows (before : List Candidate) (hp : d.root.isProper = true) (hc : p.leaves d c = true)
    (h : ¬ p.Shadows d after c) :
    (p.names d (before ++ c :: after)).lookup (Linter.target d.resolve c.path) = some c.relative := by
  have hnone : ((after.filter (p.leaves d)).map (asking d)).reverse.lookup (Linter.target d.resolve c.path) = none := by
    refine List.lookup_eq_none_iff.2 fun pair hpair => ?_
    obtain ⟨e, he, rfl⟩ := List.mem_map.1 (List.mem_reverse.1 hpair)
    obtain ⟨hmem, hleft⟩ := List.mem_filter.1 he
    have hne : Linter.target d.resolve c.path ≠ Linter.target d.resolve e.path := fun heq =>
      h ⟨e, hmem, hleft, resolve_eq_of_target hp hc hleft heq.symm⟩
    simpa [asking] using hne
  rw [lookup_names hc, hnone, Option.none_or]

theorem mem_of_lookup_names {candidates : List Candidate} {path name : String}
    (h : (p.names d candidates).lookup path = some name) :
    (path, name) ∈ (candidates.filter (p.leaves d)).map (asking d) := by
  rw [names, Association.lookup_ofPairs] at h
  exact List.mem_reverse.1 (Association.mem_of_lookup h)

theorem lookup_names_of_shadows (hnames : ((before ++ c :: after).map (·.relative)).Nodup) (hc : p.leaves d c = true)
    (h : p.Shadows d after c) (path : String) : (p.names d (before ++ c :: after)).lookup path ≠ some c.relative := by
  intro hlookup
  -- Only the candidate itself bears its name, so the path is its own.
  have hpath : path = Linter.target d.resolve c.path := by
    obtain ⟨e, he, heq⟩ := List.mem_map.1 (mem_of_lookup_names hlookup)
    obtain ⟨htarget, hname⟩ := Prod.mk.inj heq
    rw [← htarget, List.inj_on_of_nodup_map hnames (List.mem_filter.1 he).1 (by simp) hname]
  -- There a later candidate has set its name.
  obtain ⟨e, he, hleft, hsame⟩ := h
  have htarget : Linter.target d.resolve e.path = Linter.target d.resolve c.path := by
    rw [Linter.target, hsame, Linter.target]
  rw [hpath, lookup_names hc] at hlookup
  cases hlater : ((after.filter (p.leaves d)).map (asking d)).reverse.lookup (Linter.target d.resolve c.path) with
  | none =>
    have hmem : asking d e ∈ ((after.filter (p.leaves d)).map (asking d)).reverse :=
      List.mem_reverse.2 (List.mem_map_of_mem (List.mem_filter.2 ⟨he, hleft⟩))
    have hne := List.lookup_eq_none_iff.1 hlater _ hmem
    simp [asking, htarget] at hne
  | some name =>
    rw [hlater, Option.some_or] at hlookup
    obtain ⟨e', he', heq⟩ := List.mem_map.1 (List.mem_reverse.1 (Association.mem_of_lookup hlater))
    have hname : e'.relative = c.relative := (Prod.mk.inj heq).2.trans (Option.some.inj hlookup)
    rw [List.map_append, List.map_cons, List.nodup_append, List.nodup_cons] at hnames
    exact hnames.2.1.1 (hname ▸ List.mem_map_of_mem (List.mem_filter.1 he').1)

/-- What a result holds on a candidate is what the candidate contributes. -/
theorem restrict_resultOf_candidate (report : LintReport) (hon : ∀ x ∈ report.outcomes, x.2.On x.1)
    (hnames : ((before ++ c :: after).map (·.relative)).Nodup) (failed : Bool) :
    let result := p.resultOf (p.evaluated d (before ++ c :: after)) report failed
    (⟨result.findings, result.passedChecks⟩ : Outcome).restrict (fun file => file = c.relative) =
      p.outcomeOf d report.outcomes c := by
  intro result
  have hown : ∀ e, (p.outcomeOf d report.outcomes e).restrict (fun file => file = c.relative) =
      if e.relative = c.relative then p.outcomeOf d report.outcomes e else {} := fun e => by
    rw [(on_outcomeOf hon).restrict_eq]
    simp only [decide_eq_true_eq]
  rw [List.map_append, List.map_cons, List.nodup_append, List.nodup_cons] at hnames
  have hbefore : ∀ e ∈ before, e.relative ≠ c.relative := fun e he =>
    hnames.2.2 _ (List.mem_map_of_mem he) _ List.mem_cons_self
  have hafter : ∀ e ∈ after, e.relative ≠ c.relative := fun e he heq =>
    hnames.2.1.1 (heq ▸ List.mem_map_of_mem he)
  have hothers : ∀ others : List Candidate, (∀ e ∈ others, e.relative ≠ c.relative) →
      others.map (Outcome.restrict (fun file => file = c.relative) ∘ p.outcomeOf d report.outcomes) =
        others.map fun _ => ({} : Outcome) := fun others h =>
    List.map_congr_left fun e he => (hown e).trans (if_neg (h e he))
  rw [outcome_resultOf, Outcome.restrict_combine, List.map_map, List.map_append, List.map_cons, hothers before hbefore,
    hothers after hafter, Function.comp_apply, hown, if_pos rfl]
  have hnil : ∀ (α : Type) (others : List Candidate), others.flatMap (fun _ => ([] : List α)) = [] := fun α others =>
    List.flatMap_eq_nil_iff.2 fun _ _ => rfl
  simp only [Outcome.combine, List.flatMap_append, List.flatMap_cons, List.flatMap_map, hnil, List.nil_append,
    List.append_nil]

/-- The report of a linter that answers each question in full. -/
theorem report_of_thorough {l : Linter} (hl : p.linter = some l) (hfull : l.IsThorough) (hp : d.root.isProper = true)
    (calls : Nat) (ignored : List String) (root : Path) (filter : FileFilter) :
    let candidates := d.candidates ignored root filter
    ∃ entries : List LintJson, (∀ c ∈ candidates, p.leaves d c = true →
        entries.countP (fun e => Linter.entryPath? d.resolve e = some (Linter.target d.resolve c.path)) = 1) ∧
      p.lintReport d calls (p.delegatedFiles d candidates) = .ok
        { outcomes := entries.filterMap (l.judged? d.resolve (p.names d candidates))
          notes := entries.filterMap (l.note? d.resolve (p.names d candidates)) } ∧
      ((entries.filterMap (l.judged? d.resolve (p.names d candidates))).map (·.1)).Nodup := by
  intro candidates
  obtain ⟨paths, hpaths⟩ := exists_mapM (resolve_delegatedFiles (p := p) hp candidates)
  have hnames : Linter.namesAt paths (p.delegatedFiles d candidates) = p.names d candidates :=
    (Linter.namesAt_eq hpaths).trans (congrArg Association.ofPairs (map_delegatedFiles candidates))
  obtain ⟨hnodup, hnamed⟩ := p.names_delegatedFiles hp ignored root filter
  obtain ⟨entries, hanswer, hcovers⟩ := hfull calls ((p.names d candidates).map (·.1))
  have hasked : ∀ path ∈ (p.names d candidates).map (·.1), Linter.IsResolved d.resolve path := by
    intro path hpath
    rw [names, Association.mem_keys_ofPairs, List.map_map] at hpath
    obtain ⟨c, hc, rfl⟩ := List.mem_map.1 hpath
    exact isResolved_target hp (List.mem_filter.1 hc).2
  have hone : ∀ path ∈ (p.names d candidates).map (·.1),
      entries.countP (fun e => Linter.entryPath? d.resolve e = some path) = 1 := fun path hpath =>
    hcovers.countP hasked (Association.nodup_ofPairs _) hpath
  have hjudged : ((entries.filterMap (l.judged? d.resolve (p.names d candidates))).map (·.1)).Nodup := by
    refine Linter.nodup_judged (fun path path' relative h h' => ?_) fun path relative h => ?_
    · rw [← hnames] at h h'
      exact Linter.path_of_name (mapM_eq_ok.1 hpaths).length_eq.symm hnodup h h'
    · exact Nat.le_of_eq (hone path (List.mem_map_of_mem (f := (·.1)) (Association.mem_of_lookup h)))
  refine ⟨entries, fun c hc hleft => hone _ ?_, ?_, hjudged⟩
  · rw [names, Association.mem_keys_ofPairs, List.map_map]
    exact List.mem_map_of_mem (List.mem_filter.2 ⟨hc, hleft⟩)
  · rw [← hnames] at hanswer
    have hreport := Linter.report_of_entries hpaths hnamed hanswer fun e he => hcovers.isEntry hasked he
    rw [hnames, Association.ofPairs_of_nodup hjudged] at hreport
    rw [lintReport, hl]
    exact hreport

theorem outcomeOf_of_leaves (hc : p.leaves d c = true) (linted : List (String × Outcome)) :
    p.outcomeOf d linted c = (linted.lookup c.relative).getD {} := by
  have hfate : p.fate d c = .delegated := fate_eq_delegated_iff.2 ((Bool.and_eq_true _ _).mp hc)
  rw [outcomeOf, hfate]

end Profile

namespace Linter

variable {l : Linter} {resolve : Path → Except Disk.ResolveFault Path} {requested : List (String × String)}
  {entries : List LintJson}

theorem accounted_of_lookup {path name : String} (hlookup : requested.lookup path = some name)
    (hone : entries.countP (fun e => entryPath? resolve e = some path) = 1)
    (hnodup : ((entries.filterMap (l.judged? resolve requested)).map (·.1)).Nodup) :
    (∃ fatal, l.parseNote name fatal ∈ entries.filterMap (l.note? resolve requested)) ∨
      ∃ outcome, (entries.filterMap (l.judged? resolve requested)).lookup name = some outcome ∧
        (outcome.findings ≠ [] ∨ outcome.passedChecks.length = 1) := by
  obtain ⟨e, he, hpath⟩ := List.countP_pos_iff.1 (hone ▸ Nat.one_pos)
  have hname : nameOf? resolve requested e = some name :=
    Option.bind_eq_some_iff.2 ⟨path, of_decide_eq_true hpath, hlookup⟩
  cases hfatal : e.fatal? with
  | some fatal => exact .inl ⟨fatal, List.mem_filterMap.2 ⟨e, he, by rw [note?, hname, hfatal]⟩⟩
  | none =>
    refine .inr ⟨l.outcomeOn name e, ?_, ?_⟩
    · rw [Association.lookup_eq_some_iff_mem hnodup]
      exact List.mem_filterMap.2 ⟨e, he, by rw [judged?, hname, hfatal]⟩
    · unfold outcomeOn
      cases hfound : l.findingsOn name e with
      | nil => exact .inr rfl
      | cons f rest => exact .inl (List.cons_ne_nil f rest)

theorem silent_of_lookup (entries : List LintJson) {name : String}
    (hlookup : ∀ path, requested.lookup path ≠ some name) :
    (entries.filterMap (l.judged? resolve requested)).lookup name = none ∧
      ∀ note ∈ entries.filterMap (l.note? resolve requested),
        ∃ path other fatal, requested.lookup path = some other ∧ note = l.parseNote other fatal := by
  constructor
  · cases hfound : (entries.filterMap (l.judged? resolve requested)).lookup name with
    | none => rfl
    | some outcome =>
      obtain ⟨e, -, hj⟩ := List.mem_filterMap.1 (Association.mem_of_lookup hfound)
      unfold judged? at hj
      split at hj
      · next relative hname _ =>
        cases hj
        obtain ⟨path, -, hpath⟩ := Option.bind_eq_some_iff.1 hname
        exact absurd hpath (hlookup path)
      · cases hj
  · intro note hnote
    obtain ⟨e, -, hn⟩ := List.mem_filterMap.1 hnote
    unfold note? at hn
    split at hn
    · next relative fatal hname _ =>
      cases hn
      obtain ⟨path, -, hpath⟩ := Option.bind_eq_some_iff.1 hname
      exact ⟨path, relative, fatal, hpath, rfl⟩
    · cases hn

end Linter

/-- A result accounts for a file: it has a finding on it, or just one passed check, or it notes that the linter could
not parse it. -/
def Result.AccountsFor (r : Result) (linter file : String) : Prop :=
  (∃ f ∈ r.findings, f.file = file) ∨ r.passedChecks.countP (fun k => k.file = file) = 1 ∨
    ∃ detail, file ++ ": could not be parsed by " ++ linter ++ " (" ++ detail ++ ")" ∈ r.notes

/-- A result passes over a file: it has neither a finding nor a passed check on it, and each of its notes is about
another one of some files. -/
def Result.PassesOver (r : Result) (linter : String) (files : List String) (file : String) : Prop :=
  (∀ f ∈ r.findings, f.file ≠ file) ∧ (∀ k ∈ r.passedChecks, k.file ≠ file) ∧
    ∀ note ∈ r.notes, ∃ other ∈ files, other ≠ file ∧
      ∃ detail, note = other ++ ": could not be parsed by " ++ linter ++ " (" ++ detail ++ ")"

/-- What becomes of the candidates that are left to a linter which answers each question in full. -/
theorem Profile.accounts_of_thorough {p : Profile} {l : Linter} {d : Disk} (hl : p.linter = some l)
    (hfull : l.IsThorough) (hp : d.root.isProper = true) (calls : Nat) (ignored : List String) (root : Path)
    (filter : FileFilter) :
    let candidates := d.candidates ignored root filter
    ∃ report, p.lintReport d calls (p.delegatedFiles d candidates) = .ok report ∧
      ∀ before c after, candidates = before ++ c :: after → p.leaves d c = true →
        (¬ p.Shadows d after c → (p.resultOf (p.evaluated d candidates) report false).AccountsFor l.name c.relative) ∧
        (p.Shadows d after c → (p.resultOf (p.evaluated d candidates) report false).PassesOver l.name
          (candidates.map (·.relative)) c.relative) := by
  intro candidates
  obtain ⟨entries, hone, hreport, hnodup⟩ := report_of_thorough hl hfull hp calls ignored root filter
  refine ⟨_, hreport, fun before c after hsplit hc => ?_⟩
  have hon : ∀ x ∈ entries.filterMap (l.judged? d.resolve (p.names d candidates)), x.2.On x.1 := by
    rw [lintReport, hl] at hreport
    exact fun x hx => (Linter.belongs_of_lint hreport x hx).on
  have hrelatives : ((before ++ c :: after).map (·.relative)).Nodup := hsplit ▸ Disk.nodup_relatives hp
  have hown := restrict_resultOf_candidate (p := p) (d := d)
    ⟨_, entries.filterMap (l.note? d.resolve (p.names d candidates))⟩ hon hrelatives false
  rw [← hsplit, outcomeOf_of_leaves hc] at hown
  have hfindings := congrArg Outcome.findings hown
  have hchecks := congrArg Outcome.passedChecks hown
  simp only [Outcome.restrict] at hfindings hchecks
  constructor
  · intro hlast
    have hlookup := lookup_names_of_not_shadows before hp hc hlast
    rw [← hsplit] at hlookup
    have hmem : c ∈ candidates := by rw [hsplit]; simp
    rcases Linter.accounted_of_lookup hlookup (hone c hmem hc) hnodup with
      ⟨fatal, hnote⟩ | ⟨outcome, hout, hfound | hpassed⟩
    · exact .inr (.inr ⟨_, hnote⟩)
    · rw [hout] at hfindings
      obtain ⟨f, hf⟩ := List.exists_mem_of_ne_nil _ (hfindings ▸ hfound)
      exact .inl ⟨f, (List.mem_filter.1 hf).1, of_decide_eq_true (List.mem_filter.1 hf).2⟩
    · rw [hout] at hchecks
      refine .inr (.inl ?_)
      rw [List.countP_eq_length_filter, hchecks]
      exact hpassed
  · intro hshadowed
    have hlookup := lookup_names_of_shadows hrelatives hc hshadowed
    rw [← hsplit] at hlookup
    obtain ⟨hout, hnotes⟩ := Linter.silent_of_lookup (l := l) entries hlookup
    rw [hout] at hfindings hchecks
    refine ⟨fun f hf => ?_, fun k hk => ?_, fun note hnote => ?_⟩
    · simpa using List.filter_eq_nil_iff.1 hfindings f hf
    · simpa using List.filter_eq_nil_iff.1 hchecks k hk
    · obtain ⟨path, other, fatal, hother, rfl⟩ := hnotes note hnote
      obtain ⟨e, he, heq⟩ := List.mem_map.1 (mem_of_lookup_names hother)
      refine ⟨other, ?_, fun h => hlookup path (h ▸ hother), _, rfl⟩
      rw [← (Prod.mk.inj heq).2]
      exact List.mem_map_of_mem (List.mem_filter.1 he).1

/-- **Files left to the linter are accounted for, under the last of their names.** Let the linter answer each question
with one entry for each path. The result accounts for each candidate that can be read and that the linter handles,
unless a later such candidate resolves to the same path. If one does, the result passes over the earlier candidate. -/
theorem Audit.delegated_accounted (l : Linter) (hfull : l.IsThorough) (d : Disk) (hp : d.root.isProper = true)
    (ignored : List String) (calls : Nat) (root : Path) (hroot : d.isDir root = true) :
    let candidates := d.candidates ignored root (Registry.profileOf (some l) .sanitization).filter
    let handled := fun c : Candidate => c.isReadable d = true ∧ l.handles (Language.ofPath? c.path) = true
    ∃ result, (runConcern { registry := .standard (some l), disk := d, ignoredDirs := ignored } calls root
        .sanitization).outcome = .ok result ∧
      ∀ before c after, candidates = before ++ c :: after → handled c →
        ((¬ ∃ e ∈ after, handled e ∧ d.resolve e.path = d.resolve c.path) → result.AccountsFor l.name c.relative) ∧
        ((∃ e ∈ after, handled e ∧ d.resolve e.path = d.resolve c.path) →
          result.PassesOver l.name (candidates.map (·.relative)) c.relative) := by
  intro candidates handled
  by_cases hne : candidates = []
  · refine ⟨.notApplicable .sanitization,
      runConcern_eq_ok.2 ⟨hroot, _, Registry.find?_standard _ _, .inl ⟨hne, rfl⟩⟩, ?_⟩
    intro before c after hsplit
    rw [hne] at hsplit
    exact absurd hsplit.symm (by simp)
  · have hlinter : (Registry.profileOf (some l) .sanitization).linter = some l := rfl
    obtain ⟨report, hreport, haccounts⟩ := Profile.accounts_of_thorough hlinter hfull hp calls ignored root
      (Registry.profileOf (some l) .sanitization).filter
    have hleaves : ∀ e, (Registry.profileOf (some l) .sanitization).leaves d e = true ↔ handled e := fun e => by
      simp only [handled, Profile.leaves, Profile.delegates, hlinter, Option.any_some, Bool.and_eq_true]
    refine ⟨_, runConcern_of_lint hp hne (lint_of_report hreport), fun before c after hsplit hc => ?_⟩
    obtain ⟨hlast, hshadowed⟩ := haccounts before c after hsplit ((hleaves c).2 hc)
    simp only [Profile.Shadows, hleaves] at hlast hshadowed
    exact ⟨hlast, hshadowed⟩

/-! ## A script and a link to it -/

/-- A tree of a script and a link to it. -/
def aliasTree : Disk where
  root := .dir [("r", .dir [("a.js", .file (Text.Utf8.encode "eval(x)".toList)), ("b.js", .link "a.js")])]

theorem Linter.isThorough_of_map {l : Linter} {messages : List LintJson}
    (hmessages : ∀ m ∈ messages, m.isMessage = true)
    (h : ∀ calls asked, (l.backend.run calls asked).entries = .ok (asked.map fun path =>
      .object [("filePath", .string (.text path)), ("messages", .array messages)])) : l.IsThorough := by
  refine fun calls asked => ⟨_, h calls asked, ?_, ?_⟩
  · rw [List.map_map]
    exact .of_eq (List.map_congr_left fun path _ => rfl)
  · intro e he
    obtain ⟨path, -, rfl⟩ := List.mem_map.1 he
    exact ⟨messages, rfl, hmessages⟩

/-- The findings on a script come under the name of a link to it, and the script is passed over. -/
theorem Audit.delegated_accounted_aliasTree :
    let a : Audit := { registry := .standard (some alarmLinter), disk := aliasTree }
    alarmLinter.IsThorough ∧ aliasTree.root.isProper = true ∧ aliasTree.isDir ⟨"/", ["r"]⟩ = true ∧
      ∃ result, (a.runConcern 0 ⟨"/", ["r"]⟩ .sanitization).outcome = .ok result ∧
        result.AccountsFor "eslint" "b.js" ∧ result.PassesOver "eslint" ["a.js", "b.js"] "a.js" := by
  intro a
  have hfull : alarmLinter.IsThorough := Linter.isThorough_of_map (by decide +kernel) fun _ _ => rfl
  have hproper : aliasTree.root.isProper = true := by decide +kernel
  have hroot : aliasTree.isDir ⟨"/", ["r"]⟩ = true := by decide +kernel
  have hcandidates : aliasTree.candidates defaultIgnoredDirs ⟨"/", ["r"]⟩
      (Registry.profileOf (some alarmLinter) .sanitization).filter =
        [⟨⟨"/", ["r", "a.js"]⟩, "a.js"⟩, ⟨⟨"/", ["r", "b.js"]⟩, "b.js"⟩] := by decide +kernel
  obtain ⟨result, hrun, haccounts⟩ :=
    Audit.delegated_accounted alarmLinter hfull aliasTree hproper defaultIgnoredDirs 0 ⟨"/", ["r"]⟩ hroot
  rw [hcandidates] at haccounts
  obtain ⟨-, hover⟩ := haccounts [] _ _ rfl (by decide +kernel)
  obtain ⟨haccount, -⟩ := haccounts [_] _ [] rfl (by decide +kernel)
  exact ⟨hfull, hproper, hroot, result, hrun, haccount (by simp), hover ⟨_, List.mem_cons_self, by decide +kernel⟩⟩

/-- A linter may answer about every path and leave a script that it handles without any trace. -/
theorem Audit.aliased_script_lost :
    let a : Audit := { registry := .standard (some silentLinter), disk := aliasTree }
    let c : Candidate := ⟨⟨"/", ["r", "a.js"]⟩, "a.js"⟩
    silentLinter.IsThorough ∧
      c ∈ aliasTree.candidates defaultIgnoredDirs ⟨"/", ["r"]⟩
        (Registry.profileOf (some silentLinter) .sanitization).filter ∧
      c.isReadable aliasTree = true ∧ silentLinter.handles (Language.ofPath? c.path) = true ∧
      ∃ result, (a.runConcern 0 ⟨"/", ["r"]⟩ .sanitization).outcome = .ok result ∧
        ¬ result.AccountsFor "eslint" "a.js" := by
  intro a c
  have hfound : ((a.runConcern 0 ⟨"/", ["r"]⟩ .sanitization).outcome.toOption.map fun r =>
      (r.findings.map (·.file), r.passedChecks.map (·.file), r.notes)) = some ([], ["b.js"], []) := by decide +kernel
  refine ⟨Linter.isThorough_of_map (by decide +kernel) fun _ _ => rfl, by decide +kernel, by decide +kernel,
    by decide +kernel, ?_⟩
  cases hrun : (a.runConcern 0 ⟨"/", ["r"]⟩ .sanitization).outcome with
  | error fault => rw [hrun] at hfound; cases hfound
  | ok result =>
    rw [hrun] at hfound
    obtain ⟨hfindings, hrest⟩ := Prod.mk.inj (Option.some.inj hfound)
    obtain ⟨hchecks, hnotes⟩ := Prod.mk.inj hrest
    refine ⟨result, rfl, ?_⟩
    rintro (⟨f, hf, -⟩ | hcount | ⟨detail, hnote⟩)
    · rw [List.map_eq_nil_iff.1 hfindings] at hf
      cases hf
    · have hnames : (result.passedChecks.map (·.file)).countP (fun file => file = "a.js") = 1 := by
        rw [List.countP_map]
        exact hcount
      rw [hchecks] at hnames
      exact absurd hnames (by decide)
    · rw [hnotes] at hnote
      cases hnote

end SourceAudit
