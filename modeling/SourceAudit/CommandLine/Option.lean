import SourceAudit.Text.DecimalDigit

/-!
# Words of a command line

Every word of a command line is an argument or names an option. A long option may be shortened to a beginning that
no other option shares, and a value may follow it behind an equals sign. A short option may be followed directly by
its value, or by further short options. Behind a double dash all words are arguments; a negative number and a word
with a blank in it are arguments too.
-/
namespace SourceAudit.CommandLine

inductive Flag where
  | help
  | all
  | string
  | cors
  | auth
  | authz
  | config
  | reportDir
  | jobs
  | openReport
  | verbose
  | version
  deriving DecidableEq, Repr

def Flag.names : Flag → List String
  | help => ["-h", "--help"]
  | all => ["--all", "-a"]
  | string => ["--string", "-s"]
  | cors => ["--cors", "-c"]
  | auth => ["--auth", "-u"]
  | authz => ["--authz", "-z"]
  | config => ["--config"]
  | reportDir => ["--report-dir"]
  | jobs => ["--jobs", "-j"]
  | openReport => ["--open"]
  | verbose => ["--verbose", "-v"]
  | version => ["--version"]

/-- The options, in the order in which they are listed. -/
def Flag.list : List Flag :=
  [help, all, string, cors, auth, authz, config, reportDir, jobs, openReport, verbose, version]

def Flag.takesValue : Flag → Bool
  | config => true
  | reportDir => true
  | jobs => true
  | _ => false

def optionNames : List (String × Flag) := Flag.list.flatMap fun f => f.names.map (·, f)

inductive Refusal where
  | ambiguous (word : String) (names : List String)
  | missingValue (flag : Flag)
  | unusedValue (flag : Flag) (value : String)
  | noInteger (flag : Flag) (value : String)
  | missingPath
  | unrecognized (words : List String)
  deriving DecidableEq, Repr

inductive Word where
  | argument (text : String)
  /-- The double dash behind which all words are arguments. -/
  | terminator
  /-- An option as it was named, with a value if one is attached. -/
  | option (flag : Flag) (name : String) (attached : Option String)
  /-- A word that looks like an option and is none. -/
  | unknown (text : String)
  deriving DecidableEq, Repr

/-- Splits a word at its first equals sign. -/
def splitEquals (word : String) : Option (String × String) :=
  let cs := word.toList
  match cs.dropWhile (· != '=') with
  | [] => none
  | _ :: value => some (String.ofList (cs.takeWhile (· != '=')), String.ofList value)

/-- The options that a long word can mean: those it is a beginning of. -/
def longMatches (word : String) : List Word :=
  let (start, attached) := match splitEquals word with
    | some (name, value) => (name, some value)
    | none => (word, none)
  (optionNames.filter fun (name, _) => start.toList.isPrefixOf name.toList).map fun (name, flag) =>
    .option flag name attached

/-- The options that a short word can mean: the one of its first letter, with the rest attached. -/
def shortMatches (word : String) : List Word :=
  let cs := word.toList
  (optionNames.filter fun (name, _) => name.toList = cs.take 2 || cs.isPrefixOf name.toList).map fun (name, flag) =>
    .option flag name (if name.toList = cs.take 2 then some (String.ofList (cs.drop 2)) else none)

/-- Whether a word is a negative number: a dash, digits, and perhaps a point with digits behind it. -/
def isNegativeNumber (word : String) : Bool :=
  let isDigit (c : Char) : Bool := (Text.decimalValue? c).isSome
  match word.toList with
  | '-' :: rest =>
    let whole := rest.takeWhile isDigit
    match rest.dropWhile isDigit with
    | [] => !whole.isEmpty
    | '.' :: fraction => !fraction.isEmpty && fraction.all isDigit
    | _ => false
  | _ => false

/-- What a word in front of any double dash is. -/
def classify (word : String) : Except Refusal Word :=
  match word.toList with
  | [] => .ok (.argument word)
  | first :: more =>
    if first ≠ '-' then .ok (.argument word)
    else
      match optionNames.lookup word, more with
      | some flag, _ => .ok (.option flag word none)
      | none, [] => .ok (.argument word)
      | none, second :: _ =>
        match (splitEquals word).bind fun (name, value) => (optionNames.lookup name).map (·, name, value) with
        | some (flag, name, value) => .ok (.option flag name (some value))
        | none =>
          match if second = '-' then longMatches word else shortMatches word with
          | [w] => .ok w
          | [] =>
            if isNegativeNumber word || word.toList.contains ' ' then .ok (.argument word) else .ok (.unknown word)
          | ws =>
            .error (.ambiguous word (ws.filterMap fun w => match w with
              | .option _ name _ => some name
              | _ => none))

def classifyAll : List String → Except Refusal (List Word)
  | [] => .ok []
  | word :: rest =>
    if word = "--" then .ok (.terminator :: rest.map .argument)
    else do
      let w ← classify word
      return w :: (← classifyAll rest)

end SourceAudit.CommandLine
