import SourceAudit.Language
import SourceAudit.Linter.Fault
import SourceAudit.Log

/-!
# Linters

A linter judges the files of some languages. It is asked about paths and answers with one entry per file: the
path and a list of messages, each with a rule and a position. Of these, messages for the rules of the linter's
profile become findings. A file whose messages hold none becomes one passed check, and a file that the linter could
not parse becomes a note. Entries for files that were not asked about are ignored.
-/
namespace SourceAudit

/-- The rules of a linter that count, each with the severity and the advice of its findings. -/
abbrev RuleProfile := List (String × Severity × String)

/-- What a linter answers, what it logs, and the argument lists it was called with. -/
structure Answer where
  entries : Except LintFault (List LintJson)
  log : List LogLine := []
  calls : List (List String) := []

/-- Something that can be asked about paths. The answer may depend on how many calls were made before. -/
structure Backend where
  name : String
  run : (callsBefore : Nat) → (paths : List String) → Answer

/-- The rules that a linter looks for unless told otherwise. -/
def defaultProfile : RuleProfile := [
  ("no-eval", .high, "Remove eval(); parse data with JSON.parse or dispatch explicitly."),
  ("no-implied-eval", .high, "Pass functions, not strings, to setTimeout/setInterval."),
  ("no-new-func", .high, "Do not build functions from strings with new Function()."),
  ("security/detect-eval-with-expression", .high, "Never evaluate expressions derived from input."),
  ("security/detect-child-process", .high, "Use execFile/spawn with an argument array instead of exec."),
  ("security/detect-non-literal-require", .medium, "Require modules by literal name only."),
  ("security/detect-object-injection", .medium, "Validate keys against an allow-list or use a Map."),
  ("security/detect-non-literal-regexp", .medium, "Escape input before building a RegExp from it."),
  ("security/detect-unsafe-regex", .medium, "Rewrite the pattern to avoid catastrophic backtracking.")]

/-- A linter for some languages, on behalf of a concern. -/
structure Linter where
  backend : Backend
  concern : Concern := .sanitization
  languages : List Language := [.javaScript]
  profile : RuleProfile := defaultProfile

/-- What linting some files came to. -/
structure LintReport where
  outcomes : List (String × Outcome) := []
  notes : List String := []
  deriving DecidableEq, Repr

/-- What an entry of a linter's answer means. -/
inductive EntryReading where
  /-- It is about a file that was not asked about. -/
  | unrequested (path : LintJson)
  /-- The linter could not parse the file. -/
  | unparsed (relative : String) (detail : LintJson)
  | judged (relative : String) (outcome : Outcome)
  deriving Repr

/-- A position that counts from one, or none if there is none or it is malformed. -/
def readPosition : LintJson → Except LintFault (Option Nat)
  | .bool b => .ok (if b then some 1 else none)
  | .int n => .ok (if n ≥ 1 then some n.toNat else none)
  | .real (.infinite _) => .error (.broken .infinitePosition)
  | .real x => .ok (x.truncate?.bind fun n => if n ≥ 1 then some n.toNat else none)
  | .string (.text s) =>
    match Numeral.readInt s with
    | .ok n => .ok (if n ≥ 1 then some n.toNat else none)
    | .error _ => .ok none
  | _ => .ok none

namespace Linter

/-- The name under which a linter's findings appear. -/
def name (l : Linter) : String := l.backend.name

/-- Whether files of a language are left to the linter. -/
def handles (l : Linter) (language : Option Language) : Bool := language.any l.languages.contains

/-- The severity and the advice of a rule, if it counts. A rule without a name never does. -/
def ruleFor? (l : Linter) (rule : String) : Option (Severity × String) :=
  if rule = "" then none else l.profile.lookup rule

/-- The finding for a message, if its rule counts. -/
def readMessage (l : Linter) (relative : String) (message : LintJson) : Except LintFault (Option Finding) :=
  match (message.get? "ruleId").getD .null with
  | .string (.text rule) =>
    match l.ruleFor? rule with
    | none => .ok none
    | some (severity, advice) => do
      let line ← readPosition ((message.get? "line").getD .null)
      let column ← readPosition ((message.get? "column").getD .null)
      let finding : Finding := {
        file := relative
        line := 1
        message := rule ++ ": " ++ ((message.get? "message").getD (.string (.text ""))).display
        category := l.concern
        severity
        rule := l.name
        quickFix := if advice = "" then noQuickFix else advice }
      match finding.place (line.getD 1) (column.map Int.ofNat) with
      | .ok f => .ok (some f)
      | .error fault => .error (.broken (.entry fault))
  | .array (v :: rest) => .error (.broken (.ruleNotText (.array (v :: rest))))
  | .object (m :: rest) => .error (.broken (.ruleNotText (.object (m :: rest))))
  | _ => .ok none

/-- What the messages on a file mean. -/
def readMessages (l : Linter) (relative : String) (messages : List LintJson) : Except LintFault EntryReading :=
  match messages.find? fun m => ((m.get? "fatal").getD .null).isTruthy with
  | some m => .ok (.unparsed relative ((m.get? "message").getD (.string (.text "parse error"))))
  | none => do
    let findings := (← messages.mapM (l.readMessage relative)).filterMap id
    if findings.isEmpty then
      let check : PassedCheck := {
        file := relative
        message := "No unsafe sinks reported by " ++ l.name ++ "."
        category := l.concern
        rule := l.name }
      match check.place none with
      | .ok p => return .judged relative { passedChecks := [p] }
      | .error fault => .error (.broken (.entry fault))
    else return .judged relative { findings }

/-- The messages of an entry that are objects. What stands for *no* counts as no messages. -/
def messagesOf (entry : LintJson) : Except LintFault (List LintJson) :=
  match (entry.get? "messages").getD .null with
  | .array items => .ok (items.filter Json.isObject)
  | .bool true => .error (.broken (.messagesNotList (.bool true)))
  | .int n => if n = 0 then .ok [] else .error (.broken (.messagesNotList (.int n)))
  | .real x => if x.isZero then .ok [] else .error (.broken (.messagesNotList (.real x)))
  | _ => .ok []

def pathOfText : WideText → Path
  | .text s => .ofString s
  | .illFormed t => .ofCodePoints t.codePoints

/-- The path that an entry is about, resolved; none if it names no path. -/
def pathOf (resolve : Path → Except Disk.ResolveFault Path) (path : LintJson) : Except LintFault (Option String) :=
  match path with
  | .string s =>
    if s.isEmpty then .ok none
    else
      match resolve (pathOfText s) with
      | .ok p => .ok (some p.toString)
      | .error fault => .error (.broken (.unresolvable fault))
  | v => if v.isTruthy then .error (.broken (.pathNotText v)) else .ok none

/-- What an entry means. `requested` gives the name in the tree of each resolved path asked about. -/
def readEntry (l : Linter) (resolve : Path → Except Disk.ResolveFault Path) (requested : List (String × String))
    (entry : LintJson) : Except LintFault EntryReading :=
  match entry with
  | .object _ => do
    let path := (entry.get? "filePath").getD .null
    match (← pathOf resolve path).bind fun p => requested.lookup p with
    | none => return .unrequested path
    | some relative => l.readMessages relative (← messagesOf entry)
  | v => .error (.unusable (.malformedEntry l.name v))

/-- What entries mean, up to the first that cannot be read. -/
def readEntries (l : Linter) (resolve : Path → Except Disk.ResolveFault Path) (requested : List (String × String)) :
    List LintJson → List EntryReading × Option LintFault
  | [] => ([], none)
  | entry :: rest =>
    match l.readEntry resolve requested entry with
    | .error fault => ([], some fault)
    | .ok reading =>
      let (readings, fault) := l.readEntries resolve requested rest
      (reading :: readings, fault)

def addReading (l : Linter) (report : LintReport) : EntryReading → LintReport
  | .unrequested _ => report
  | .unparsed relative detail =>
    { report with
      notes := report.notes ++ [relative ++ ": could not be parsed by " ++ l.name ++ " (" ++ detail.display ++ ")"] }
  | .judged relative outcome => { report with outcomes := Association.set relative outcome report.outcomes }

/-- What is logged about an entry. -/
def logReading (l : Linter) : EntryReading → List LogLine
  | .unrequested path =>
    [⟨.debug, .linter, "Ignoring " ++ l.name ++ " result for unrequested file " ++ path.display⟩]
  | .unparsed relative detail =>
    [⟨.warning, .linter, l.name ++ " could not parse " ++ relative ++ ": " ++ detail.display⟩]
  | .judged .. => []

/-- The resolved paths of some files with their names in the tree. Of two files with one resolved path the later
name counts. -/
def requestedOf (resolve : Path → Except Disk.ResolveFault Path) (files : List (Path × String)) :
    Except Disk.ResolveFault (List (String × String)) :=
  files.foldlM (fun requested (path, relative) => do
    return Association.set (← resolve path).toString relative requested) []

/-- What linting came to, what was logged and the calls that were made. -/
structure Run where
  report : Except LintFault LintReport
  log : List LogLine := []
  calls : List (List String) := []

/-- Lints files, each with its name in the tree. -/
def lint (l : Linter) (resolve : Path → Except Disk.ResolveFault Path) (callsBefore : Nat)
    (files : List (Path × String)) : Run :=
  if files.isEmpty then { report := .ok {} }
  else
    match requestedOf resolve files with
    | .error fault => { report := .error (.broken (.unresolvable fault)) }
    | .ok requested =>
      let answer := l.backend.run callsBefore (requested.map (·.1))
      match answer.entries with
      | .error fault => { report := .error fault, log := answer.log, calls := answer.calls }
      | .ok entries =>
        let (readings, fault) := l.readEntries resolve requested entries
        { report := match fault with
            | some fault => .error fault
            | none => .ok (readings.foldl l.addReading {})
          log := answer.log ++ readings.flatMap l.logReading
          calls := answer.calls }

end Linter
end SourceAudit
