import SourceAudit.Linter.Basic
import SourceAudit.Text.Lines

/-!
# ESLint

ESLint is started with a fixed set of rules and without the configuration of the tree it looks at. Files are
given to it in batches. The first batch that fails ends the run.
-/
namespace SourceAudit

inductive ProcessEnd where
  | notFound
  | timedOut
  | notStarted (detail : String)
  | exited (status : Int) (stdout stderr : String)
  deriving DecidableEq, Repr

/-- The processes of a run: how the `n`-th one ends, given its arguments. -/
abbrev Processes := (n : Nat) → (arguments : List String) → ProcessEnd

structure EsLint where
  command : List String := ["eslint"]
  profile : List String := defaultProfile.map (·.1)
  timeout : Binary64 := .ofInt 300
  /-- What is refused of its output. -/
  limits : Json.Limits := {}

namespace EsLint

/-- The number of files that one process is given. -/
def batchSize : Nat := 200

/-- Cuts a list into pieces of `size + 1` items; the last may be shorter. -/
def batchesOf {α : Type} (size : Nat) : List α → List (List α)
  | [] => []
  | x :: rest => (x :: rest.take size) :: batchesOf size (rest.drop size)
termination_by xs => xs.length
decreasing_by simp only [List.length_drop, List.length_cons]; omega

def batches (paths : List String) : List (List String) := batchesOf (batchSize - 1) paths

def arguments (e : EsLint) (paths : List String) : List String :=
  e.command ++
  ["--no-eslintrc", "--format", "json", "--env", "node,es2021", "--parser-options", "ecmaVersion:2021",
    "--plugin", "security", "--no-color"] ++
  e.profile.flatMap (fun rule => ["--rule", rule ++ ": error"]) ++
  paths

/-- The first line that a failed process said, on one of its two channels. -/
def firstLine (stdout stderr : String) : Option String :=
  (Text.brokenLines (String.ofList (Text.trim (if stderr = "" then stdout else stderr).toList))).head?

/-- The entries that a process printed. Nothing at all stands for an empty list. -/
def readOutput (e : EsLint) (stdout : String) : Except LintFault (List LintJson) :=
  match Json.read (if stdout = "" then "[]" else stdout) e.limits with
  | .ok (.array entries) => .ok entries
  | .ok _ => .error (.unusable .outputNotList)
  | .error (.tooManyDigits digits) => .error (.broken (.outputNumber digits))
  | .error .tooDeep => .error (.broken .outputDepth)
  | .error error => .error (.unusable (.malformedOutput error))

/-- The entries that the end of a process means. -/
def readEnd (e : EsLint) : ProcessEnd → Except LintFault (List LintJson)
  | .notFound =>
    match e.command with
    | [] => .error (.broken .noCommand)
    | command :: _ => .error (.unusable (.commandNotFound command))
  | .timedOut => .error (.unusable (.timedOut e.timeout))
  | .notStarted detail => .error (.unusable (.notStarted detail))
  | .exited status stdout stderr =>
    if status = 0 ∨ status = 1 then e.readOutput stdout
    else .error (.unusable (.exited status (firstLine stdout stderr)))

/-- Runs batches one after another, the first of them as process number `n`. -/
def runBatches (e : EsLint) (processes : Processes) : (n : Nat) → List (List String) → Answer
  | _, [] => { entries := .ok [] }
  | n, batch :: rest =>
    let arguments := e.arguments batch
    let line : LogLine := ⟨.info, .linter, "Running eslint on " ++ toString batch.length ++ " file(s)"⟩
    match e.readEnd (processes n arguments) with
    | .error fault => { entries := .error fault, log := [line], calls := [arguments] }
    | .ok entries =>
      let answer := e.runBatches processes (n + 1) rest
      { entries := answer.entries.map (entries ++ ·)
        log := line :: answer.log
        calls := arguments :: answer.calls }

/-- Asks about paths. -/
def run (e : EsLint) (processes : Processes) (callsBefore : Nat) (paths : List String) : Answer :=
  e.runBatches processes callsBefore (batches paths)

/-- ESLint as something that can be asked about paths. -/
def backend (e : EsLint) (processes : Processes) : Backend := ⟨"eslint", e.run processes⟩

end EsLint
end SourceAudit
