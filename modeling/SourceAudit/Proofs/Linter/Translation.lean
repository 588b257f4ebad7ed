import SourceAudit.Proofs.Association
import SourceAudit.Proofs.Linter.Answer

/-!
# What the entries of a linter come to

An answer is a list of entries, each about a path and with a list of messages. What an entry comes to is settled by the
entry alone: a note if one of its messages is fatal, and otherwise the findings for those of its messages whose rule
counts, or one passed check if there are none. Here this is said of the entries themselves, and reading them is shown to
come to just that.

Results:
* `readEntry_eq`: reading an entry of the right form gives what the entry comes to.
* `report_of_entries`: the report on an answer holds what its entries come to.
* `nodup_judged`: if no file is judged twice, each name stands once in the report.
-/
namespace SourceAudit

open Fallible

namespace Json

/-- The value of a member of an object, or null. -/
def member (name : String) (v : LintJson) : LintJson := (v.get? name).getD .null

/-- The integer that a value stands for, if any. -/
def integer? : LintJson → Option Int
  | .bool b => some (if b then 1 else 0)
  | .int n => some n
  | .real x => x.truncate?
  | .string (.text s) => (Numeral.readInt s).toOption
  | _ => none

/-- The position that a value gives: a positive integer. -/
def position? (v : LintJson) : Option Nat := (v.integer?.filter (0 < ·)).map Int.toNat

/-- Whether a value is anything but infinite. -/
def isFinite : LintJson → Bool
  | .real (.infinite _) => false
  | _ => true

/-- Whether a message has the right form: its rule is a text or missing, and its positions are finite. -/
def isMessage (m : LintJson) : Bool :=
  (match m.member "ruleId" with
    | .string _ => true
    | .null => true
    | _ => false) && (m.member "line").isFinite && (m.member "column").isFinite

def messages (entry : LintJson) : List LintJson :=
  match entry.get? "messages" with
  | some (.array items) => items
  | _ => []

/-- The message that says that the file could not be parsed. -/
def fatal? (entry : LintJson) : Option LintJson := entry.messages.find? fun m => (m.member "fatal").isTruthy

end Json

theorem Json.position?_of_integer {v : LintJson} {n : Int} (h : v.integer? = some n) :
    v.position? = if n ≥ 1 then some n.toNat else none := by
  rw [position?, h]
  by_cases hn : 0 < n
  · rw [if_pos (by omega), Option.filter_some_pos (by simpa using hn), Option.map_some]
  · rw [if_neg (by omega), Option.filter_some_neg (by simpa using hn), Option.map_none]

theorem Json.position?_of_none {v : LintJson} (h : v.integer? = none) : v.position? = none := by
  rw [position?, h, Option.filter_none, Option.map_none]

theorem Json.position?_pos {v : LintJson} {n : Nat} (h : v.position? = some n) : 0 < n := by
  obtain ⟨i, hi, rfl⟩ := Option.map_eq_some_iff.1 h
  have := of_decide_eq_true (Option.filter_eq_some_iff.1 hi).2
  omega

theorem readPosition_eq {v : LintJson} (h : v.isFinite = true) : readPosition v = .ok v.position? := by
  cases v with
  | null => rfl
  | array items => rfl
  | object members => rfl
  | bool b => cases b <;> rfl
  | int n => rw [Json.position?_of_integer (n := n) rfl]; rfl
  | string s =>
    cases s with
    | illFormed t => rfl
    | text s =>
      rw [readPosition]
      cases hs : Numeral.readInt s with
      | ok n => rw [Json.position?_of_integer (n := n) (by rw [Json.integer?, hs]; rfl)]
      | error fault => rw [Json.position?_of_none (by rw [Json.integer?, hs]; rfl)]
  | real x =>
    cases x with
    | infinite negative => cases h
    | nan => rfl
    | finite negative m q => rw [Json.position?_of_integer rfl]; rfl

theorem Finding.place_eq {f : Finding} {line : Nat} {column : Option Nat} (hfile : f.file ≠ "") (hline : 0 < line)
    (hcolumn : ∀ c ∈ column, 0 < c) :
    f.place line (column.map Int.ofNat) = .ok { f with line := line, column := column } := by
  unfold place
  rw [if_neg hfile, if_neg (by omega)]
  cases column with
  | none => rfl
  | some c =>
    have hc := hcolumn c rfl
    simp only [Option.map_some]
    rw [if_neg (by simp; omega)]
    rfl

namespace Linter

variable {l : Linter} {resolve : Path → Except Disk.ResolveFault Path} {requested : List (String × String)}

/-- Whether an entry has the right form: it gives the text of a path, empty or such that it can be resolved, and a list
of messages of the right form. -/
def isEntry (resolve : Path → Except Disk.ResolveFault Path) (entry : LintJson) : Bool :=
  match entry.get? "filePath", entry.get? "messages" with
  | some (.string s), some (.array items) =>
    (s.isEmpty || (resolve (pathOfText s)).toBool) && items.all Json.isMessage
  | _, _ => false

/-- The path that an entry is about, resolved. -/
def entryPath? (resolve : Path → Except Disk.ResolveFault Path) (entry : LintJson) : Option String :=
  match entry.get? "filePath" with
  | some (.string s) => if s.isEmpty then none else (resolve (pathOfText s)).toOption.map (·.toString)
  | _ => none

/-- The finding for a message, if its rule has a name and stands in the profile. -/
def findingFor? (l : Linter) (relative : String) (m : LintJson) : Option Finding :=
  match m.member "ruleId" with
  | .string (.text rule) =>
    if rule = "" then none
    else (l.profile.lookup rule).map fun (severity, advice) => {
      file := relative
      line := (m.member "line").position?.getD 1
      column := (m.member "column").position?
      message := rule ++ ": " ++ ((m.get? "message").getD (.string (.text ""))).display
      category := l.concern
      severity
      rule := l.name
      quickFix := if advice = "" then noQuickFix else advice }
  | _ => none

/-- The findings on a file: those for its messages, in their order. -/
def findingsOn (l : Linter) (relative : String) (entry : LintJson) : List Finding :=
  entry.messages.filterMap (l.findingFor? relative)

/-- What an entry that is not fatal comes to: its findings, or one passed check if there are none. -/
def outcomeOn (l : Linter) (relative : String) (entry : LintJson) : Outcome :=
  let findings := l.findingsOn relative entry
  if findings.isEmpty then
    { passedChecks := [{
        file := relative
        message := "No unsafe sinks reported by " ++ l.name ++ "."
        category := l.concern
        rule := l.name }] }
  else { findings }

/-- What is noted about a file that could not be parsed. -/
def parseNote (l : Linter) (relative : String) (fatal : LintJson) : String :=
  relative ++ ": could not be parsed by " ++ l.name ++ " (" ++
    ((fatal.get? "message").getD (.string (.text "parse error"))).display ++ ")"

/-- The name of the file that an entry is about, if it was asked about. -/
def nameOf? (resolve : Path → Except Disk.ResolveFault Path) (requested : List (String × String)) (entry : LintJson) :
    Option String :=
  (entryPath? resolve entry).bind fun path => requested.lookup path

/-- The name and the outcome that an entry adds to a report. -/
def judged? (l : Linter) (resolve : Path → Except Disk.ResolveFault Path) (requested : List (String × String))
    (entry : LintJson) : Option (String × Outcome) :=
  match nameOf? resolve requested entry, entry.fatal? with
  | some relative, none => some (relative, l.outcomeOn relative entry)
  | _, _ => none

/-- The note that an entry adds to a report. -/
def note? (l : Linter) (resolve : Path → Except Disk.ResolveFault Path) (requested : List (String × String))
    (entry : LintJson) : Option String :=
  match nameOf? resolve requested entry, entry.fatal? with
  | some relative, some fatal => some (l.parseNote relative fatal)
  | _, _ => none

def readingOf (l : Linter) (resolve : Path → Except Disk.ResolveFault Path) (requested : List (String × String))
    (entry : LintJson) : EntryReading :=
  match nameOf? resolve requested entry, entry.fatal? with
  | none, _ => .unrequested (entry.member "filePath")
  | some relative, some fatal => .unparsed relative ((fatal.get? "message").getD (.string (.text "parse error")))
  | some relative, none => .judged relative (l.outcomeOn relative entry)

/-- Reading a message of the right form gives its finding. -/
theorem readMessage_eq {relative : String} {m : LintJson} (hr : relative ≠ "") (hm : m.isMessage = true) :
    l.readMessage relative m = .ok (l.findingFor? relative m) := by
  simp only [Json.isMessage, Bool.and_eq_true] at hm
  obtain ⟨⟨hrule, hline⟩, hcolumn⟩ := hm
  unfold readMessage findingFor?
  rw [show (m.get? "ruleId").getD .null = m.member "ruleId" from rfl]
  cases hid : m.member "ruleId" with
  | null => rfl
  | string rule =>
    cases rule with
    | illFormed t => rfl
    | text rule =>
      by_cases hempty : rule = ""
      · simp only [ruleFor?, if_pos hempty]
      · simp only [ruleFor?, if_neg hempty]
        cases l.profile.lookup rule with
        | none => rfl
        | some entry =>
          obtain ⟨severity, advice⟩ := entry
          have hread : readPosition ((m.get? "line").getD .null) = .ok (m.member "line").position? :=
            readPosition_eq hline
          have hread' : readPosition ((m.get? "column").getD .null) = .ok (m.member "column").position? :=
            readPosition_eq hcolumn
          have hpos : 0 < (m.member "line").position?.getD 1 := by
            cases hp : (m.member "line").position? with
            | none => exact Nat.one_pos
            | some n => exact Json.position?_pos hp
          simp only [hread, hread', bind, Except.bind, Option.map_some]
          rw [Finding.place_eq hr hpos fun c hc => Json.position?_pos hc]
  | bool b => rfl
  | int n => rfl
  | real x => rfl
  | array items => rw [hid] at hrule; cases hrule
  | object members => rw [hid] at hrule; cases hrule

theorem findingFor?_eq_none {relative : String} {m : LintJson} (h : m.isObject = false) :
    l.findingFor? relative m = none := by
  cases m with
  | object members => cases h
  | _ => rfl

theorem fatal_eq_false {m : LintJson} (h : m.isObject = false) : (m.member "fatal").isTruthy = false := by
  cases m with
  | object members => cases h
  | _ => rfl

theorem find?_fatal (entry : LintJson) :
    (entry.messages.filter Json.isObject).find? (fun m => ((m.get? "fatal").getD .null).isTruthy) =
      entry.fatal? := by
  rw [List.find?_filter, Json.fatal?]
  congr 1
  funext m
  cases hm : m.isObject with
  | true => simp [Json.member]
  | false => simp [fatal_eq_false hm]

/-- Reading messages of the right form gives what the entry comes to. -/
theorem readMessages_eq {relative : String} {entry : LintJson} (hr : relative ≠ "")
    (hmessages : ∀ m ∈ entry.messages, m.isMessage = true) :
    l.readMessages relative (entry.messages.filter Json.isObject) =
      .ok (match entry.fatal? with
        | some fatal => .unparsed relative ((fatal.get? "message").getD (.string (.text "parse error")))
        | none => .judged relative (l.outcomeOn relative entry)) := by
  have hread : (entry.messages.filter Json.isObject).mapM (l.readMessage relative) =
      .ok ((entry.messages.filter Json.isObject).map (l.findingFor? relative)) :=
    mapM_eq_ok_map fun m hm => readMessage_eq hr (hmessages m (List.mem_filter.1 hm).1)
  have hfound : ((entry.messages.filter Json.isObject).map (l.findingFor? relative)).filterMap id =
      l.findingsOn relative entry := by
    rw [List.filterMap_map, Function.id_comp, List.filterMap_filter, findingsOn]
    congr 1
    funext m
    cases hm : m.isObject with
    | true => simp
    | false => simp [findingFor?_eq_none hm]
  unfold readMessages
  rw [find?_fatal]
  cases entry.fatal? with
  | some fatal => rfl
  | none =>
    simp only [hread, bind, Except.bind, hfound, outcomeOn]
    cases hf : l.findingsOn relative entry with
    | nil => simp [PassedCheck.place, hr]; rfl
    | cons f rest => rfl

theorem of_isEntry {entry : LintJson} (h : isEntry resolve entry = true) :
    (∃ members, entry = .object members) ∧
    (∃ s, entry.get? "filePath" = some (.string s) ∧ (s.isEmpty = true ∨ ∃ p, resolve (pathOfText s) = .ok p)) ∧
    entry.get? "messages" = some (.array entry.messages) ∧ ∀ m ∈ entry.messages, m.isMessage = true := by
  unfold isEntry at h
  split at h
  · next s items hpath hitems =>
    simp only [Bool.and_eq_true, Bool.or_eq_true, List.all_eq_true] at h
    have hmessages : entry.messages = items := by rw [Json.messages, hitems]
    rw [hmessages]
    refine ⟨?_, ⟨s, hpath, h.1.imp_right exists_of_toBool⟩, hitems, h.2⟩
    cases entry with
    | object members => exact ⟨members, rfl⟩
    | _ => cases hpath
  · cases h

theorem pathOf_eq {entry : LintJson} (h : isEntry resolve entry = true) :
    pathOf resolve (entry.member "filePath") = .ok (entryPath? resolve entry) := by
  obtain ⟨-, ⟨s, hs, hresolve⟩, -⟩ := of_isEntry h
  rw [Json.member, entryPath?, hs, Option.getD_some, pathOf]
  by_cases hempty : s.isEmpty = true
  · simp only [if_pos hempty]
  · obtain ⟨p, hp⟩ := hresolve.resolve_left hempty
    simp only [if_neg hempty, hp]
    rfl

/-- Reading an entry of the right form gives what the entry comes to. -/
theorem readEntry_eq {entry : LintJson} (h : isEntry resolve entry = true)
    (hnamed : ∀ path relative, requested.lookup path = some relative → relative ≠ "") :
    l.readEntry resolve requested entry = .ok (l.readingOf resolve requested entry) := by
  obtain ⟨⟨members, hobject⟩, -, hitems, hmessages⟩ := of_isEntry h
  have hread : messagesOf entry = .ok (entry.messages.filter Json.isObject) := by
    rw [messagesOf, hitems]
    rfl
  have hpath := pathOf_eq h
  unfold readEntry readingOf nameOf?
  rw [Json.member] at hpath
  rw [hobject] at hpath hread ⊢
  simp only [hpath, bind, Except.bind]
  rw [← hobject]
  cases hname : (entryPath? resolve entry).bind fun path => requested.lookup path with
  | none => rfl
  | some relative =>
    obtain ⟨path, -, hlookup⟩ := Option.bind_eq_some_iff.1 hname
    rw [← hobject] at hread
    simp only [hread]
    rw [readMessages_eq (hnamed path relative hlookup) hmessages]
    cases entry.fatal? <;> rfl

/-! ## Reports -/

theorem readEntries_eq {entries : List LintJson} (h : ∀ e ∈ entries, isEntry resolve e = true)
    (hnamed : ∀ path relative, requested.lookup path = some relative → relative ≠ "") :
    l.readEntries resolve requested entries = (entries.map (l.readingOf resolve requested), none) := by
  induction entries with
  | nil => rfl
  | cons entry rest ih =>
    rw [readEntries, readEntry_eq (h entry List.mem_cons_self) hnamed]
    simp only [ih fun e he => h e (List.mem_cons_of_mem _ he), List.map_cons]

theorem addReading_readingOf (report : LintReport) (entry : LintJson) :
    l.addReading report (l.readingOf resolve requested entry) =
      { outcomes := ((l.judged? resolve requested entry).toList.foldl
          (fun done pair => Association.set pair.1 pair.2 done) report.outcomes)
        notes := report.notes ++ (l.note? resolve requested entry).toList } := by
  unfold readingOf judged? note?
  cases nameOf? resolve requested entry with
  | none => simp [addReading]
  | some relative => cases entry.fatal? <;> simp [addReading, parseNote]

/-- A report holds what the entries come to: an outcome for each file that was judged, of several the last, and all
notes. -/
theorem foldl_addReading (entries : List LintJson) :
    (entries.map (l.readingOf resolve requested)).foldl l.addReading {} =
      { outcomes := Association.ofPairs (entries.filterMap (l.judged? resolve requested))
        notes := entries.filterMap (l.note? resolve requested) } := by
  induction entries using List.reverseRecOn with
  | nil => rfl
  | append_singleton entries entry ih =>
    rw [List.map_append, List.foldl_append, ih, List.map_singleton, List.foldl_cons, List.foldl_nil,
      addReading_readingOf, List.filterMap_append, List.filterMap_append]
    cases hj : l.judged? resolve requested entry <;> cases hn : l.note? resolve requested entry <;>
      simp [hj, hn, Association.ofPairs_concat]

/-- The names asked about, by resolved path. Of two files with one resolved path the later name counts. -/
def namesAt (paths : List Path) (files : List (Path × String)) : List (String × String) :=
  Association.ofPairs ((paths.map (·.toString)).zip (files.map (·.2)))

theorem requestedOf_eq {files : List (Path × String)} {paths : List Path}
    (h : files.mapM (fun f => resolve f.1) = .ok paths) : requestedOf resolve files = .ok (namesAt paths files) := by
  have hpairs := mapM_eq_ok.1 h
  unfold requestedOf namesAt Association.ofPairs
  generalize ([] : List (String × String)) = before
  induction hpairs generalizing before with
  | nil => rfl
  | @cons f p files paths hp hrest ih =>
    rw [List.foldlM_cons]
    exact bind_eq_ok.2 ⟨_, bind_eq_ok.2 ⟨p, hp, rfl⟩, ih (mapM_eq_ok.2 hrest) _⟩

theorem mem_of_lookup_namesAt {paths : List Path} {files : List (Path × String)} {path relative : String}
    (h : (namesAt paths files).lookup path = some relative) :
    (path, relative) ∈ (paths.map (·.toString)).zip (files.map (·.2)) := by
  rw [namesAt, Association.lookup_ofPairs] at h
  exact List.mem_reverse.1 (Association.mem_of_lookup h)

theorem name_ne_empty {paths : List Path} {files : List (Path × String)} (h : ∀ f ∈ files, f.2 ≠ "")
    (path relative : String) (hlookup : (namesAt paths files).lookup path = some relative) : relative ≠ "" := by
  obtain ⟨f, hf, rfl⟩ := List.mem_map.1 (List.of_mem_zip (mem_of_lookup_namesAt hlookup)).2
  exact h f hf

theorem path_of_name {paths : List Path} {files : List (Path × String)} (hlength : paths.length = files.length)
    (hnames : (files.map (·.2)).Nodup) {path path' relative : String}
    (h : (namesAt paths files).lookup path = some relative)
    (h' : (namesAt paths files).lookup path' = some relative) : path = path' := by
  have hzip : (((paths.map (·.toString)).zip (files.map (·.2))).map (·.2)).Nodup := by
    rw [List.map_snd_zip (by simp [hlength])]
    exact hnames
  exact congrArg Prod.fst
    (List.inj_on_of_nodup_map hzip (mem_of_lookup_namesAt h) (mem_of_lookup_namesAt h') rfl)

/-- A report on an answer of entries of the right form holds what its entries come to. -/
theorem report_of_entries {calls : Nat} {files : List (Path × String)} {paths : List Path} {entries : List LintJson}
    (hpaths : files.mapM (fun f => resolve f.1) = .ok paths) (hnamed : ∀ f ∈ files, f.2 ≠ "")
    (hanswer : (l.backend.run calls ((namesAt paths files).map (·.1))).entries = .ok entries)
    (hentries : ∀ e ∈ entries, isEntry resolve e = true) :
    (l.lint resolve calls files).report = .ok
      { outcomes := Association.ofPairs (entries.filterMap (l.judged? resolve (namesAt paths files)))
        notes := entries.filterMap (l.note? resolve (namesAt paths files)) } := by
  unfold lint
  cases files with
  | nil =>
    obtain rfl : [] = paths := Except.ok.inj hpaths
    have hname : ∀ e, nameOf? resolve (namesAt [] []) e = none := fun e => by
      cases h : entryPath? resolve e <;> simp [nameOf?, h, namesAt, Association.ofPairs]
    have hjudged : entries.filterMap (l.judged? resolve (namesAt [] [])) = [] :=
      List.filterMap_eq_nil_iff.2 fun e _ => by simp [judged?, hname]
    have hnotes : entries.filterMap (l.note? resolve (namesAt [] [])) = [] :=
      List.filterMap_eq_nil_iff.2 fun e _ => by simp [note?, hname]
    rw [hjudged, hnotes]
    rfl
  | cons f rest =>
    simp only [List.isEmpty_cons, Bool.false_eq_true, if_false, requestedOf_eq hpaths, hanswer,
      readEntries_eq hentries (name_ne_empty hnamed), foldl_addReading]

/-- If no file is judged twice, the names of the files judged differ. -/
theorem nodup_judged {entries : List LintJson}
    (hinj : ∀ path path' relative, requested.lookup path = some relative → requested.lookup path' = some relative →
      path = path')
    (honce : ∀ path relative, requested.lookup path = some relative →
      entries.countP (fun e => entryPath? resolve e = some path) ≤ 1) :
    ((entries.filterMap (l.judged? resolve requested)).map (·.1)).Nodup := by
  rw [List.map_filterMap, List.nodup_iff_count_le_one]
  intro relative
  rw [List.count_filterMap]
  have hname : ∀ e, ((l.judged? resolve requested e).map (·.1) == some relative) = true →
      ∃ path, entryPath? resolve e = some path ∧ requested.lookup path = some relative := by
    intro e he
    unfold judged? at he
    split at he
    · next name hname _ =>
      have hrelative : name = relative := by simpa using he
      exact Option.bind_eq_some_iff.1 (hrelative ▸ hname)
    · cases he
  by_cases hasked : ∃ path, requested.lookup path = some relative
  · obtain ⟨path, hpath⟩ := hasked
    refine Nat.le_trans (List.countP_mono_left fun e _ he => ?_) (honce path relative hpath)
    obtain ⟨path', he, hpath'⟩ := hname e he
    simpa [hinj path' path relative hpath' hpath] using he
  · have hnone : entries.countP (fun e => (l.judged? resolve requested e).map (·.1) == some relative) = 0 :=
      List.countP_eq_zero.2 fun e _ he => by
        obtain ⟨path, -, hpath⟩ := hname e he
        exact hasked ⟨path, hpath⟩
    omega

end Linter
end SourceAudit
