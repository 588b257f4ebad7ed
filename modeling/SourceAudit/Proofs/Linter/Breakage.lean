import SourceAudit.Linter.EsLint
import SourceAudit.Proofs.Linter.Translation

/-!
# Answers that break the linting off

A linter that is unusable is reported as such, but some values inside an otherwise usable answer break the linting off.
Here it is said of the values themselves which do, for a message, an entry, a list of entries and the output of a
process, and reading them is shown to break off for just these.

Results:
* `Linter.fault?_readMessage`, `Linter.fault?_readEntry`: why a message and an entry cannot be read.
* `Linter.readEntries_breaks`: the first entry that breaks off settles why, unless one that is no object stands before.
* `EsLint.entries_run`: a run gives what its processes printed, one after another.
* `EsLint.lint_breaks`: what ESLint's processes must print to break the linting off.
-/
namespace SourceAudit

open Fallible

namespace Linter

/-- Why a message breaks off, if it does: its rule is a list or an object that is not empty, or its rule counts and one
of its positions is infinite. -/
def messageBreakage? (l : Linter) (m : LintJson) : Option Breakage :=
  match m.member "ruleId" with
  | .string (.text rule) =>
    if (l.ruleFor? rule).isSome && !((m.member "line").isFinite && (m.member "column").isFinite) then
      some .infinitePosition
    else none
  | .array items => if items.isEmpty then none else some (.ruleNotText (.array items))
  | .object members => if members.isEmpty then none else some (.ruleNotText (.object members))
  | _ => none

/-- Why the messages of an entry break off, if they do: none is fatal and one of them breaks off, or they are a number
other than zero or a yes. -/
def messagesBreakage? (l : Linter) (entry : LintJson) : Option Breakage :=
  match entry.member "messages" with
  | .array items => if entry.fatal?.isSome then none else items.findSome? l.messageBreakage?
  | .string _ => none
  | .object _ => none
  | v => if v.isTruthy then some (.messagesNotList v) else none

/-- Why the path of an entry breaks off, if it does: it cannot be resolved, or it stands for *yes* but is no text. -/
def pathBreakage? (resolve : Path → Except Disk.ResolveFault Path) (entry : LintJson) : Option Breakage :=
  match entry.member "filePath" with
  | .string s => if s.isEmpty then none else (fault? (resolve (pathOfText s))).map .unresolvable
  | v => if v.isTruthy then some (.pathNotText v) else none

/-- Why an entry breaks off, if it does: for its path, or for its messages if its file was asked about. -/
def entryBreakage? (l : Linter) (resolve : Path → Except Disk.ResolveFault Path) (requested : List (String × String))
    (entry : LintJson) : Option Breakage :=
  (pathBreakage? resolve entry).or
    (if (nameOf? resolve requested entry).isSome then l.messagesBreakage? entry else none)

/-- Why entries break off, if they do. An entry that is no object ends the reading before it breaks off. -/
def entriesBreakage? (l : Linter) (resolve : Path → Except Disk.ResolveFault Path) (requested : List (String × String))
    (entries : List LintJson) : Option Breakage :=
  (entries.takeWhile Json.isObject).findSome? (l.entryBreakage? resolve requested)

variable {l : Linter} {resolve : Path → Except Disk.ResolveFault Path} {requested : List (String × String)}

/-! ## Messages -/

theorem readPosition_of_infinite {v : LintJson} (h : v.isFinite = false) :
    readPosition v = .error (.broken .infinitePosition) := by
  cases v with
  | real x =>
    cases x with
    | infinite negative => rfl
    | _ => cases h
  | _ => cases h

theorem fault?_readMessage_of_rule {relative rule : String} {m : LintJson} {entry : Severity × String}
    (hr : relative ≠ "") (hid : m.member "ruleId" = .string (.text rule)) (hrule : l.ruleFor? rule = some entry) :
    fault? (l.readMessage relative m) =
      if (m.member "line").isFinite && (m.member "column").isFinite then none
      else some (.broken .infinitePosition) := by
  have hget : (m.get? "ruleId").getD .null = .string (.text rule) := hid
  cases hline : (m.member "line").isFinite with
  | false =>
    have hread : readPosition ((m.get? "line").getD .null) = _ := readPosition_of_infinite hline
    rw [readMessage, hget]
    simp only [hrule, hread]
    rfl
  | true =>
    cases hcolumn : (m.member "column").isFinite with
    | false =>
      have hread : readPosition ((m.get? "line").getD .null) = _ := readPosition_eq hline
      have hread' : readPosition ((m.get? "column").getD .null) = _ := readPosition_of_infinite hcolumn
      rw [readMessage, hget]
      simp only [hrule, hread, hread']
      rfl
    | true =>
      have hm : m.isMessage = true := by simp [Json.isMessage, hid, hline, hcolumn]
      rw [readMessage_eq hr hm]
      rfl

/-- Reading a message fails exactly if the message breaks off. -/
theorem fault?_readMessage {relative : String} (hr : relative ≠ "") (m : LintJson) :
    fault? (l.readMessage relative m) = (l.messageBreakage? m).map .broken := by
  have hget : (m.get? "ruleId").getD .null = m.member "ruleId" := rfl
  rw [messageBreakage?]
  cases hid : m.member "ruleId" with
  | string rule =>
    cases rule with
    | illFormed t => rw [readMessage, hget, hid]; rfl
    | text rule =>
      cases hrule : l.ruleFor? rule with
      | some entry =>
        rw [fault?_readMessage_of_rule hr hid hrule]
        simp only [hrule, Option.isSome_some, Bool.true_and]
        cases (m.member "line").isFinite && (m.member "column").isFinite <;> rfl
      | none =>
        rw [readMessage, hget, hid]
        simp only [hrule]
        rfl
  | array items =>
    rw [readMessage, hget, hid]
    cases items <;> rfl
  | object members =>
    rw [readMessage, hget, hid]
    cases members <;> rfl
  | _ => rw [readMessage, hget, hid]; rfl

theorem findSome?_filter_objects (items : List LintJson) :
    (items.filter Json.isObject).findSome? l.messageBreakage? =
      items.findSome? l.messageBreakage? := by
  induction items with
  | nil => rfl
  | cons m rest ih =>
    rw [List.findSome?_cons, ← ih]
    cases m with
    | object members => rfl
    | _ => rfl

theorem fault?_readMessages {relative : String} (hr : relative ≠ "") (messages : List LintJson) :
    fault? (l.readMessages relative messages) =
      if (messages.find? fun m => ((m.get? "fatal").getD .null).isTruthy).isSome then none
      else (messages.findSome? l.messageBreakage?).map .broken := by
  have hmessages : fault? (messages.mapM (l.readMessage relative)) =
      (messages.findSome? l.messageBreakage?).map .broken := by
    simp only [fault?_mapM, fault?_readMessage hr, List.map_findSome?]
    rfl
  unfold readMessages
  cases messages.find? fun m => ((m.get? "fatal").getD .null).isTruthy with
  | some m => rfl
  | none =>
    rw [← hmessages]
    cases messages.mapM (l.readMessage relative) with
    | error fault => rfl
    | ok found =>
      simp only [bind, Except.bind, PassedCheck.place, if_neg hr]
      cases found.filterMap id <;> rfl

/-! ## Entries -/

/-- Reading the messages of an entry about a file asked about fails exactly if they break off. -/
theorem fault?_messagesOf {relative : String} (hr : relative ≠ "") (entry : LintJson) :
    fault? (messagesOf entry >>= l.readMessages relative) = (l.messagesBreakage? entry).map .broken := by
  have hget : (entry.get? "messages").getD .null = entry.member "messages" := rfl
  have hempty : fault? (l.readMessages relative []) = none := fault?_readMessages hr []
  rw [messagesOf, messagesBreakage?, hget]
  cases hm : entry.member "messages" with
  | array items =>
    have hitems : items = entry.messages := by
      unfold Json.member at hm
      unfold Json.messages
      cases hsome : entry.get? "messages" with
      | none => rw [hsome] at hm; cases hm
      | some v => rw [hsome] at hm; cases hm; rfl
    have hfatal : (items.filter Json.isObject).find?
        (fun m => ((m.get? "fatal").getD .null).isTruthy) = entry.fatal? := hitems ▸ find?_fatal entry
    calc fault? (l.readMessages relative (items.filter Json.isObject))
        = if entry.fatal?.isSome then none else (items.findSome? l.messageBreakage?).map .broken := by
          rw [fault?_readMessages hr, hfatal, findSome?_filter_objects]
      _ = (if entry.fatal?.isSome then none else items.findSome? l.messageBreakage?).map .broken := by
          cases entry.fatal? <;> rfl
  | bool b =>
    cases b with
    | true => rfl
    | false => exact hempty
  | int n =>
    by_cases hn : n = 0
    · subst hn
      exact hempty
    · simp [hn, Json.isTruthy, bind, Except.bind]
  | real x =>
    cases hx : x.isZero with
    | true =>
      simp only [hx, if_true, Json.isTruthy]
      exact hempty
    | false => simp [hx, Json.isTruthy, bind, Except.bind]
  | _ => exact hempty

theorem pathOf_cases (resolve : Path → Except Disk.ResolveFault Path) (entry : LintJson) :
    (pathBreakage? resolve entry = none ∧ pathOf resolve (entry.member "filePath") = .ok (entryPath? resolve entry)) ∨
      ∃ reason, pathBreakage? resolve entry = some reason ∧
        pathOf resolve (entry.member "filePath") = .error (.broken reason) := by
  unfold pathBreakage? pathOf entryPath? Json.member
  cases entry.get? "filePath" with
  | none => exact .inl ⟨rfl, rfl⟩
  | some v =>
    cases v with
    | string s =>
      simp only [Option.getD_some]
      by_cases hs : s.isEmpty = true
      · simp [hs]
      · cases resolve (pathOfText s) <;> simp [hs, Except.toOption]
    | _ =>
      simp only [Option.getD_some]
      split <;> simp

/-- Reading an entry fails if it is no object, for which the linter is unusable, and otherwise exactly if the entry
breaks off. -/
theorem fault?_readEntry (hnamed : ∀ path relative, requested.lookup path = some relative → relative ≠ "")
    (entry : LintJson) :
    fault? (l.readEntry resolve requested entry) =
      if entry.isObject then (l.entryBreakage? resolve requested entry).map .broken
      else some (.unusable (.malformedEntry l.name entry)) := by
  cases entry with
  | object members =>
    have hobject : (Json.object members : LintJson).isObject = true := rfl
    rw [if_pos hobject, entryBreakage?, nameOf?, readEntry]
    have hpaths := pathOf_cases resolve (.object members)
    rw [Json.member] at hpaths
    rcases hpaths with ⟨hnone, hpath⟩ | ⟨reason, hsome, hpath⟩
    · rw [hnone, Option.none_or]
      simp only [hpath, bind, Except.bind]
      cases hname : (entryPath? resolve (.object members)).bind fun p => requested.lookup p with
      | none => rfl
      | some relative =>
        obtain ⟨path, -, hlookup⟩ := Option.bind_eq_some_iff.1 hname
        exact fault?_messagesOf (hnamed path relative hlookup) (.object members)
    · rw [hsome, Option.some_or]
      simp only [hpath, bind, Except.bind]
      rfl
  | _ => rfl

/-! ## Lists of entries -/

theorem fault_readEntries (entries : List LintJson) :
    (l.readEntries resolve requested entries).2 =
      entries.findSome? fun e => fault? (l.readEntry resolve requested e) := by
  induction entries with
  | nil => rfl
  | cons entry rest ih =>
    rw [List.findSome?_cons, ← ih, readEntries]
    cases l.readEntry resolve requested entry <;> rfl

/-- Reading entries breaks off exactly if one of them does and none before it is anything but an object. -/
theorem readEntries_breaks (hnamed : ∀ path relative, requested.lookup path = some relative → relative ≠ "")
    (entries : List LintJson) (reason : Breakage) :
    (l.readEntries resolve requested entries).2 = some (.broken reason) ↔
      l.entriesBreakage? resolve requested entries = some reason := by
  rw [fault_readEntries, entriesBreakage?]
  induction entries with
  | nil => simp
  | cons entry rest ih =>
    rw [List.findSome?_cons, fault?_readEntry hnamed]
    cases hobject : entry.isObject with
    | false => simp [hobject]
    | true =>
      rw [List.takeWhile_cons, if_pos hobject, List.findSome?_cons, if_pos rfl]
      cases l.entryBreakage? resolve requested entry with
      | none => exact ih
      | some first => simp

/-- Linting breaks off exactly if the linter does, or if its entries do. -/
theorem lint_breaks {files : List (Path × String)} {calls : Nat} (hne : files ≠ [])
    (hrequested : requestedOf resolve files = .ok requested)
    (hnamed : ∀ path relative, requested.lookup path = some relative → relative ≠ "") (reason : Breakage) :
    (l.lint resolve calls files).report = .error (.broken reason) ↔
      (l.backend.run calls (requested.map (·.1))).entries = .error (.broken reason) ∨
        ∃ entries, (l.backend.run calls (requested.map (·.1))).entries = .ok entries ∧
          l.entriesBreakage? resolve requested entries = some reason := by
  unfold lint
  simp only [List.isEmpty_eq_false_iff.2 hne, Bool.false_eq_true, if_false, hrequested]
  cases (l.backend.run calls (requested.map (·.1))).entries with
  | error fault => simp
  | ok entries =>
    simp only [← readEntries_breaks hnamed, reduceCtorEq, false_or, Except.ok.injEq, exists_eq_left']
    cases (l.readEntries resolve requested entries).2 <;> simp

end Linter

/-! ## Processes -/

namespace ProcessEnd

/-- What a process printed, read, if its status says that it judged the files. -/
def output? (limits : Json.Limits) : ProcessEnd → Option (Except Json.ReadError LintJson)
  | .exited status stdout _ =>
    if status = 0 ∨ status = 1 then some (Json.read (if stdout = "" then "[]" else stdout) limits) else none
  | _ => none

def entries? (limits : Json.Limits) (x : ProcessEnd) : Option (List LintJson) :=
  match x.output? limits with
  | some (.ok (.array entries)) => some entries
  | _ => none

/-- Why the output of a process breaks off, if it does: it has a number that is too long, or is nested too deeply. -/
def breakage? (limits : Json.Limits) (x : ProcessEnd) : Option Breakage :=
  match x.output? limits with
  | some (.error (.tooManyDigits digits)) => some (.outputNumber digits)
  | some (.error .tooDeep) => some .outputDepth
  | _ => none

end ProcessEnd

namespace EsLint

variable {e : EsLint} {processes : Processes}

def ends (e : EsLint) (processes : Processes) (calls : Nat) (paths : List String) : List ProcessEnd :=
  ((batches paths).zipIdx calls).map fun (batch, n) => processes n (e.arguments batch)

theorem ends_nil (e : EsLint) (processes : Processes) (calls : Nat) : e.ends processes calls [] = [] := by
  simp [ends, batches, batchesOf]

/-- A run gives what its processes printed, one after another. -/
theorem entries_run (e : EsLint) (processes : Processes) (calls : Nat) (paths : List String) :
    (e.run processes calls paths).entries = ((e.ends processes calls paths).mapM e.readEnd).map List.flatten := by
  unfold run ends
  generalize batches paths = pieces
  induction pieces generalizing calls with
  | nil => rfl
  | cons batch rest ih =>
    rw [List.zipIdx_cons, List.map_cons, List.mapM_cons, runBatches]
    cases e.readEnd (processes calls (e.arguments batch)) with
    | error fault => rfl
    | ok entries =>
      simp only [ih]
      cases ((rest.zipIdx (calls + 1)).map fun (batch, n) => processes n (e.arguments batch)).mapM e.readEnd <;> rfl

theorem readEnd_eq_ok {x : ProcessEnd} {entries : List LintJson} :
    e.readEnd x = .ok entries ↔ x.entries? e.limits = some entries := by
  unfold ProcessEnd.entries? ProcessEnd.output? readEnd
  cases x with
  | notFound => cases e.command <;> simp
  | timedOut => simp
  | notStarted detail => simp
  | exited status stdout stderr =>
    by_cases hs : status = 0 ∨ status = 1
    · simp only [if_pos hs, readOutput]
      cases (Json.read (if stdout = "" then "[]" else stdout) e.limits : Except Json.ReadError LintJson) with
      | ok v => cases v <;> simp
      | error fault => cases fault <;> simp
    · simp [if_neg hs]

theorem readEnd_breaks (hcommand : e.command ≠ []) {x : ProcessEnd} {reason : Breakage} :
    e.readEnd x = .error (.broken reason) ↔ x.breakage? e.limits = some reason := by
  unfold ProcessEnd.breakage? ProcessEnd.output? readEnd
  cases x with
  | notFound =>
    obtain ⟨command, rest, hc⟩ := List.exists_cons_of_ne_nil hcommand
    simp [hc]
  | timedOut => simp
  | notStarted detail => simp
  | exited status stdout stderr =>
    by_cases hs : status = 0 ∨ status = 1
    · simp only [if_pos hs, readOutput]
      cases (Json.read (if stdout = "" then "[]" else stdout) e.limits : Except Json.ReadError LintJson) with
      | ok v => cases v <;> simp
      | error fault => cases fault <;> simp
    · simp [if_neg hs]

theorem fault?_run (calls : Nat) (paths : List String) :
    fault? (e.run processes calls paths).entries =
      ((e.ends processes calls paths).find? fun x => (x.entries? e.limits).isNone).bind fun x =>
        fault? (e.readEnd x) := by
  have hflat : ∀ lists : Except LintFault (List (List LintJson)), fault? (lists.map List.flatten) = fault? lists := by
    intro lists
    cases lists <;> rfl
  rw [entries_run, hflat, fault?_mapM]
  induction e.ends processes calls paths with
  | nil => rfl
  | cons x rest ih =>
    rw [List.findSome?_cons]
    cases hx : x.entries? e.limits with
    | some entries =>
      rw [List.find?_cons_of_neg (by simp [hx]), readEnd_eq_ok.2 hx]
      exact ih
    | none =>
      rw [List.find?_cons_of_pos (by simp [hx]), Option.bind_some]
      cases hread : e.readEnd x with
      | ok entries => rw [readEnd_eq_ok.1 hread] at hx; cases hx
      | error fault => rfl

/-- A run gives entries exactly if each process printed some, and then it gives them all. -/
theorem run_eq_ok {calls : Nat} {paths : List String} {entries : List LintJson} :
    (e.run processes calls paths).entries = .ok entries ↔
      (e.ends processes calls paths).find? (fun x => (x.entries? e.limits).isNone) = none ∧
        ((e.ends processes calls paths).filterMap (·.entries? e.limits)).flatten = entries := by
  cases hfirst : (e.ends processes calls paths).find? (fun x => (x.entries? e.limits).isNone) with
  | some x =>
    have hx : x.entries? e.limits = none := by simpa using List.find?_some hfirst
    have hfault : fault? (e.run processes calls paths).entries = fault? (e.readEnd x) := by
      rw [fault?_run, hfirst, Option.bind_some]
    constructor
    · intro hok
      rw [hok, fault?_ok, eq_comm, fault?_eq_none] at hfault
      obtain ⟨_, hread⟩ := hfault
      rw [readEnd_eq_ok.1 hread] at hx
      cases hx
    · rintro ⟨hnone, -⟩
      cases hnone
  | none =>
    have hprinted : ∀ x ∈ e.ends processes calls paths, x.entries? e.limits = some ((x.entries? e.limits).getD []) := by
      intro x hx
      have hsome := List.find?_eq_none.1 hfirst x hx
      cases hentries : x.entries? e.limits with
      | none => simp [hentries] at hsome
      | some entries => rfl
    have hlists := mapM_eq_ok_map fun x hx => (readEnd_eq_ok (e := e)).2 (hprinted x hx)
    rw [entries_run, hlists, List.filterMap_eq_map_iff_forall_eq_some.2 hprinted]
    exact ⟨fun h => ⟨rfl, Except.ok.inj h⟩, fun h => congrArg Except.ok h.2⟩

/-- Why the output of processes breaks the linting off, if it does. The first process that printed no entries settles
it; if each printed some, the entries do. -/
def disruption? (e : EsLint) (l : Linter) (resolve : Path → Except Disk.ResolveFault Path)
    (requested : List (String × String)) (ends : List ProcessEnd) : Option Breakage :=
  match ends.find? (fun x => (x.entries? e.limits).isNone) with
  | some x => x.breakage? e.limits
  | none => l.entriesBreakage? resolve requested (ends.filterMap (·.entries? e.limits)).flatten

theorem run_breaks (hcommand : e.command ≠ []) (calls : Nat) (paths : List String) (reason : Breakage) :
    (e.run processes calls paths).entries = .error (.broken reason) ↔
      ((e.ends processes calls paths).find? fun x => (x.entries? e.limits).isNone).bind (·.breakage? e.limits) =
        some reason := by
  simp only [← fault?_eq_some, fault?_run, Option.bind_eq_some_iff]
  simp only [fault?_eq_some, readEnd_breaks hcommand]

/-- Linting with ESLint breaks off exactly if the output of its processes does. -/
theorem lint_breaks {l : Linter} {resolve : Path → Except Disk.ResolveFault Path} {requested : List (String × String)}
    {files : List (Path × String)} {calls : Nat} (hcommand : e.command ≠ []) (hl : l.backend = e.backend processes)
    (hne : files ≠ []) (hrequested : Linter.requestedOf resolve files = .ok requested)
    (hnamed : ∀ path relative, requested.lookup path = some relative → relative ≠ "") (reason : Breakage) :
    (l.lint resolve calls files).report = .error (.broken reason) ↔
      e.disruption? l resolve requested (e.ends processes calls (requested.map (·.1))) = some reason := by
  rw [Linter.lint_breaks hne hrequested hnamed, hl]
  change (e.run processes calls _).entries = _ ∨ (∃ entries, (e.run processes calls _).entries = _ ∧ _) ↔ _
  rw [run_breaks hcommand, disruption?]
  simp only [run_eq_ok]
  cases (e.ends processes calls (requested.map (·.1))).find? (fun x => (x.entries? e.limits).isNone) <;> simp

end EsLint
end SourceAudit
