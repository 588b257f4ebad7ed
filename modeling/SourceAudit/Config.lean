import SourceAudit.Datum
import SourceAudit.Disk.Listing
import SourceAudit.Json.Display
import SourceAudit.Number.Numeral
import SourceAudit.Sorting

/-!
# Configuration

The settings of an audit. They come from a mapping, whose values are brought into the form of each setting, and can
be overridden one by one, in which case the new value is laid in as it is. Either way all settings are checked
afterwards, so that every configuration that is ever made passes the checks.
-/
namespace SourceAudit

/-- The settings of an audit, each as the value it was given. -/
structure Config where
  extraIgnoreDirs : Json := .array []
  reportDir : Json := .string "security_report"
  jobs : Json := .int 4
  eslintCommand : Json := .array [.string "eslint"]
  eslintTimeout : Json := .real (.ofInt 300)
  deriving Inhabited, Repr

inductive ConfigFault where
  /-- Keys that are no settings. -/
  | unknownKeys (names : List String)
  /-- A key that is no setting and no text either. -/
  | keyNotText (key : Datum)
  | notTexts (key : String)
  | numeral (fault : Numeral.Fault)
  | noInteger (value : Datum)
  | noReal (value : Datum)
  | integerOfNan
  | integerOfInfinity
  | realTooLarge
  /-- An integer of more digits than are shown. -/
  | integerTooLong
  | tooFewJobs (jobs : Json)
  | emptyCommand
  | timeoutNotPositive
  | reportDirNotRelative
  /-- A value that cannot be compared with a number. -/
  | notComparable (sign : String) (value : Json)
  /-- A value that cannot be a path. -/
  | noPath (value : Json)
  /-- A value that does not hold names of directories. -/
  | noNames (value : Json)
  /-- A name of a directory that cannot be compared. -/
  | nameNotText (value : Json)
  /-- The report directory is the root of the tree itself. -/
  | noReportName
  | unknownOverride (name : String)
  | fileNotFound (path : Path)
  | disk (error : DiskError)
  | notMapping (path : Path)
  /-- What the reader says about a file that holds no value. -/
  | unreadable (message : String)
  deriving Repr

/-- The wording of an integer that is too long to be shown. -/
def tooLongText : String :=
  "Exceeds the limit (4300 digits) for integer string conversion; " ++
    "use sys.set_int_max_str_digits() to increase the limit"

def ConfigFault.message : ConfigFault → String
  | .unknownKeys names => "Unknown configuration keys: " ++ commaSeparated names
  | .keyNotText key => "sequence item 0: expected str instance, " ++ key.kindName ++ " found"
  | .notTexts key => key ++ " must be a string or a list of strings"
  | .numeral fault => fault.message
  | .noInteger value =>
    "int() argument must be a string, a bytes-like object or a real number, not '" ++ value.kindName ++ "'"
  | .noReal value => "float() argument must be a string or a real number, not '" ++ value.kindName ++ "'"
  | .integerOfNan => "cannot convert float NaN to integer"
  | .integerOfInfinity => "cannot convert float infinity to integer"
  | .realTooLarge => "int too large to convert to float"
  | .integerTooLong => tooLongText
  | .tooFewJobs jobs =>
    if (Datum.ofJson jobs).isShowable then "jobs must be at least 1, got " ++ jobs.display else tooLongText
  | .emptyCommand => "eslint_command must not be empty"
  | .timeoutNotPositive => "eslint_timeout must be positive"
  | .reportDirNotRelative => "report_dir must be a relative directory name"
  | .notComparable sign value =>
    "'" ++ sign ++ "' not supported between instances of '" ++ value.kindName ++ "' and 'int'"
  | .noPath value => "expected str, bytes or os.PathLike object, not " ++ value.kindName
  | .noNames value => "'" ++ value.kindName ++ "' object is not iterable"
  | .nameNotText value => "unhashable type: '" ++ value.kindName ++ "'"
  | .noReportName => "tuple index out of range"
  | .unknownOverride name => "unknown setting: " ++ name
  | .fileNotFound path => "Configuration file not found: " ++ path.toString
  | .disk error => error.message
  | .notMapping path => "Configuration at " ++ path.toString ++ " is not a mapping"
  | .unreadable message => message

namespace Config

/-! ## Checks -/

/-- Whether a value is less than one. -/
def isBelowOne (v : Json) : Except ConfigFault Bool :=
  match v with
  | .int n => .ok (n < 1)
  | .bool b => .ok !b
  | .real x => .ok x.isBelowOne
  | v => .error (.notComparable "<" v)

/-- Whether a value is at most zero. -/
def isNonpositive (v : Json) : Except ConfigFault Bool :=
  match v with
  | .int n => .ok (n ≤ 0)
  | .bool b => .ok !b
  | .real x => .ok x.isNonpositive
  | v => .error (.notComparable "<=" v)

/-- Checks the report directory: a relative path that is not empty. -/
def checkReportDir (v : Json) : Except ConfigFault Unit :=
  match v with
  | .string s => if s = "" || (Path.ofString s).isAbsolute then .error .reportDirNotRelative else .ok ()
  | v => if v.isTruthy then .error (.noPath v) else .error .reportDirNotRelative

def check (c : Config) : Except ConfigFault Unit := do
  if ← isBelowOne c.jobs then throw (.tooFewJobs c.jobs)
  if !c.eslintCommand.isTruthy then throw .emptyCommand
  if ← isNonpositive c.eslintTimeout then throw .timeoutNotPositive
  checkReportDir c.reportDir

/-- A configuration that passes the checks. -/
def checked (c : Config) : Except ConfigFault Config := do
  c.check
  return c

/-! ## From a mapping -/

/-- The names of the settings. -/
def keys : List String := ["extra_ignore_dirs", "report_dir", "jobs", "eslint_command", "eslint_timeout"]

/-- Refuses keys that are no settings. -/
def checkKeys (entries : List (Datum × Datum)) : Except ConfigFault Unit := do
  let unknown := (entries.map (·.1)).filter fun k => !keys.any fun name => k.sameKey (.text name)
  let names ← unknown.mapM fun k => match k with
    | .text s => .ok s
    | k => .error (.keyNotText k)
  if names.isEmpty then return else throw (.unknownKeys (sortBy id names))

def valueOf? (key : String) (entries : List (Datum × Datum)) : Option Datum :=
  (entries.find? fun (k, _) => k.sameKey (.text key)).map (·.2)

/-- A value as it is shown. -/
def toText (v : Datum) : Except ConfigFault Json :=
  if v.isShowable then .ok (.string v.display) else .error .integerTooLong

/-- A list of texts: the words of a text, or the items of a list as they are shown. -/
def toTexts (key : String) (v : Datum) : Except ConfigFault Json :=
  match v with
  | .text s => .ok (.array ((Text.words s).map .string))
  | .list items => return .array (← items.mapM toText)
  | .pair a b => return .array (← [a, b].mapM toText)
  | _ => .error (.notTexts key)

def toInteger (v : Datum) : Except ConfigFault Json :=
  let ofText (s : String) : Except ConfigFault Json :=
    match Numeral.readInt s with
    | .ok n => .ok (.int n)
    | .error fault => .error (.numeral fault)
  match v with
  | .int n => .ok (.int n)
  | .bool b => .ok (.int (if b then 1 else 0))
  | .real .nan => .error .integerOfNan
  | .real (.infinite _) => .error .integerOfInfinity
  | .real x => .ok (.int (x.truncate?.getD 0))
  | .text s => ofText s
  | .bytes bs => ofText (String.ofList (bs.map fun b => Char.ofNat b.toNat))
  | v => .error (.noInteger v)

def toReal (v : Datum) : Except ConfigFault Json :=
  let ofText (s : String) : Except ConfigFault Json :=
    match Numeral.readReal s with
    | .ok x => .ok (.real x)
    | .error fault => .error (.numeral fault)
  match v with
  | .int n =>
    match Binary64.ofInt n with
    | .infinite _ => .error .realTooLarge
    | x => .ok (.real x)
  | .bool b => .ok (.real (.ofInt (if b then 1 else 0)))
  | .real x => .ok (.real x)
  | .text s => ofText s
  | .bytes bs => ofText (String.ofList (bs.map fun b => Char.ofNat b.toNat))
  | v => .error (.noReal v)

/-- The value of a key brought into form, or a default. -/
def settingOf (key : String) (entries : List (Datum × Datum)) (form : Datum → Except ConfigFault Json)
    (default : Json) : Except ConfigFault Json :=
  match valueOf? key entries with
  | none => .ok default
  | some v => form v

def ofMapping (entries : List (Datum × Datum)) : Except ConfigFault Config := do
  checkKeys entries
  let base : Config := {}
  let extraIgnoreDirs ← settingOf "extra_ignore_dirs" entries (toTexts "extra_ignore_dirs") base.extraIgnoreDirs
  let eslintCommand ← settingOf "eslint_command" entries (toTexts "eslint_command") base.eslintCommand
  let jobs ← settingOf "jobs" entries toInteger base.jobs
  let eslintTimeout ← settingOf "eslint_timeout" entries toReal base.eslintTimeout
  let reportDir ← settingOf "report_dir" entries toText base.reportDir
  checked { extraIgnoreDirs, reportDir, jobs, eslintCommand, eslintTimeout }

/-- How a configuration file is read: what its bytes hold, or the wording of what is wrong with them. The path only
serves the wording. -/
abbrev Reader := Path → List UInt8 → Except String Datum

/-- The value that a file holds; where there is none, it is null. -/
def valueAt (read : Reader) (d : Disk) (path : Path) : Except ConfigFault Datum :=
  match d.find? path with
  | some (.file bytes) => (read path bytes).mapError .unreadable
  | some (.locked _) => .error (.disk ⟨.notPermitted, path⟩)
  | some (.dir _) => .error (.disk ⟨.isDirectory, path⟩)
  | _ => .ok .null

/-- The configuration of a file, or the default without one. -/
def load (read : Reader) (d : Disk) : Option Path → Except ConfigFault Config
  | none => .ok {}
  | some path => do
    if !d.isFile path then throw (.fileNotFound path)
    match ← valueAt read d path with
    | .null => return {}
    | .table entries => ofMapping entries
    | _ => throw (.notMapping path)

/-! ## Overrides -/

/-- Lays in one setting. -/
def set (c : Config) (key : String) (v : Json) : Except ConfigFault Config :=
  match key with
  | "extra_ignore_dirs" => .ok { c with extraIgnoreDirs := v }
  | "report_dir" => .ok { c with reportDir := v }
  | "jobs" => .ok { c with jobs := v }
  | "eslint_command" => .ok { c with eslintCommand := v }
  | "eslint_timeout" => .ok { c with eslintTimeout := v }
  | key => .error (.unknownOverride key)

/-- The overrides that say something: those that are not null. -/
def effective (overrides : List (String × Json)) : List (String × Json) :=
  overrides.filter fun (_, v) => !(v matches .null)

/-- A configuration with settings overridden. The name `self` is reserved. -/
def merged (c : Config) (overrides : List (String × Json)) : Except ConfigFault Config :=
  if overrides.any (·.1 = "self") then .error (.unknownOverride "self")
  else
    match effective overrides with
    | [] => .ok c
    | values => do
      let c ← values.foldlM (fun c (key, v) => c.set key v) c
      c.checked

/-! ## What an audit takes from it -/

def reportDirText (c : Config) : String :=
  match c.reportDir with
  | .string s => s
  | _ => ""

/-- The names of directories that a value holds. -/
def namesOf (v : Json) : Except ConfigFault (List Json) :=
  match v with
  | .array items => items.mapM fun item => match item with
    | .array _ | .object _ => .error (.nameNotText item)
    | item => .ok item
  | .string s => .ok (s.toList.map fun c => .string (String.singleton c))
  | .object members => .ok (members.map fun (name, _) => .string name)
  | v => .error (.noNames v)

/-- What is not entered, each once; the report's directory is part of it. -/
def ignored (c : Config) : Except ConfigFault (List Json) :=
  match (Path.ofString c.reportDirText).names with
  | [] => .error .noReportName
  | name :: _ => do
    let names := defaultIgnoredDirs.map .string ++ (← namesOf c.extraIgnoreDirs) ++ [.string name]
    return names.eraseDupsBy fun a b => (Datum.ofJson a).sameKey (Datum.ofJson b)

/-- The names of directories that are not entered. -/
def ignoredDirs (c : Config) : Except ConfigFault (List String) :=
  c.ignored.map fun names => names.filterMap fun
    | .string s => some s
    | _ => none

/-- The command that starts the linter. -/
def command (c : Config) : List String :=
  match c.eslintCommand with
  | .array items => items.map (·.display)
  | _ => []

/-- How long the linter may take. -/
def timeout (c : Config) : Binary64 :=
  match c.eslintTimeout with
  | .real x => x
  | .int n => .ofInt n
  | _ => .ofInt 1

end Config
end SourceAudit
