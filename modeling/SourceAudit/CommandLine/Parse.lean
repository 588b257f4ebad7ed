import SourceAudit.CommandLine.Option
import SourceAudit.Concern
import SourceAudit.Number.Numeral

/-!
# Parsing a command line

Words are taken from left to right. The first argument is the path; further ones, and words that are no options, are
left over and refused at the end. Help and version are given as soon as their option is reached.
-/
namespace SourceAudit.CommandLine

structure Options where
  path : String := ""
  all : Bool := false
  selected : List Concern := []
  config : Option String := none
  reportDir : Option String := none
  jobs : Option Int := none
  openReport : Bool := false
  verbose : Bool := false
  deriving Repr

def Options.concerns (o : Options) : List Concern := Concern.all.filter fun c => o.all || o.selected.contains c

/-- What ends the parsing early. -/
inductive Stop where
  | help
  | version
  | refused (reason : Refusal)
  deriving DecidableEq, Repr

/-- What has been parsed so far. -/
structure State where
  options : Options := {}
  path : Option String := none
  extras : List String := []

/-- Carries out an option. -/
def apply (o : Options) (flag : Flag) (value : String) : Except Stop Options :=
  match flag with
  | .help => .error .help
  | .version => .error .version
  | .all => .ok { o with all := true }
  | .string => .ok { o with selected := .sanitization :: o.selected }
  | .cors => .ok { o with selected := .cors :: o.selected }
  | .auth => .ok { o with selected := .authentication :: o.selected }
  | .authz => .ok { o with selected := .authorization :: o.selected }
  | .config => .ok { o with config := some value }
  | .reportDir => .ok { o with reportDir := some value }
  | .jobs =>
    match Numeral.readInt value with
    | .ok n => .ok { o with jobs := some n }
    | .error _ => .error (.refused (.noInteger flag value))
  | .openReport => .ok { o with openReport := true }
  | .verbose => .ok { o with verbose := true }

/-- Whether the name of an option is a single letter behind a dash. -/
def isShort (name : String) : Bool := name.toList.tail.head? != some '-'

/-- The options that a word joins, each with its value, given what is attached to the first and the argument that
follows the word. The fuel bounds the letters. Also whether that argument is used up. -/
def joined (following : Option String) : (fuel : Nat) → (flag : Flag) → (name : String) → (attached : Option String) →
    Except Refusal (List (Flag × String) × Bool)
  | 0, flag, _, _ => .error (.missingValue flag)
  | fuel + 1, flag, name, attached =>
    match attached with
    | none =>
      if flag.takesValue then
        match following with
        | some value => .ok ([(flag, value)], true)
        | none => .error (.missingValue flag)
      else .ok ([(flag, "")], false)
    | some value =>
      if flag.takesValue then .ok ([(flag, value)], false)
      else
        match value.toList with
        | [] => .error (.unusedValue flag value)
        | letter :: more =>
          let next := String.ofList ['-', letter]
          match isShort name, optionNames.lookup next with
          | true, some nextFlag => do
            let attached := if more.isEmpty then none else some (String.ofList more)
            let (others, used) ← joined following fuel nextFlag next attached
            return ((flag, "") :: others, used)
          | _, _ => .error (.unusedValue flag value)

/-- Takes words from left to right. The fuel bounds their number. -/
def consume : (fuel : Nat) → State → List Word → Except Stop State
  | 0, s, _ => .ok s
  | _ + 1, s, [] => .ok s
  | fuel + 1, s, .unknown word :: rest => consume fuel { s with extras := s.extras ++ [word] } rest
  | fuel + 1, s, .argument text :: rest =>
    match s.path, rest with
    | some _, rest => consume fuel { s with extras := s.extras ++ [text] } rest
    | none, .terminator :: rest => consume fuel { s with path := some text } rest
    | none, rest => consume fuel { s with path := some text } rest
  | fuel + 1, s, .terminator :: rest =>
    match s.path, rest with
    | none, .argument text :: rest => consume fuel { s with path := some text } rest
    | _, rest => consume fuel { s with extras := s.extras ++ ["--"] } rest
  | fuel + 1, s, .option flag name attached :: rest =>
    let following := match rest with
      | .argument text :: _ => some text
      | _ => none
    match joined following ((attached.getD "").length + 2) flag name attached with
    | .error reason => .error (.refused reason)
    | .ok (flags, used) => do
      let options ← flags.foldlM (fun o (flag, value) => apply o flag value) s.options
      consume fuel { s with options } (if used then rest.tail else rest)

def parse (words : List String) : Except Stop Options := do
  match classifyAll words with
  | .error reason => throw (.refused reason)
  | .ok ws =>
    let s ← consume (ws.length + 1) {} ws
    match s.path with
    | none => throw (.refused .missingPath)
    | some path =>
      if s.extras.isEmpty then return { s.options with path } else throw (.refused (.unrecognized s.extras))

end SourceAudit.CommandLine
