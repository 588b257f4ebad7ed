import SourceAudit.Json.Reader

/-!
# Tags of YAML nodes

A tag says how a node is to be understood. A plain scalar without a tag gets one from its text: words for truth
values and for null, integers in several bases, numbers with a point, and dates.
-/
namespace SourceAudit.Yaml

/-- How a node is to be understood. -/
inductive Tag where
  | null
  | bool
  | int
  | float
  | binary
  | timestamp
  | omap
  | pairs
  | set
  | str
  | seq
  | map
  | merge
  | value
  | other (name : String)
  deriving DecidableEq, Repr

namespace Tag

def standard : String := "tag:yaml.org,2002:"

/-- The short names of the tags of the standard. -/
def names : List (String × Tag) := [
  ("null", null), ("bool", bool), ("int", int), ("float", float), ("binary", binary), ("timestamp", timestamp),
  ("omap", omap), ("pairs", pairs), ("set", set), ("str", str), ("seq", seq), ("map", map), ("merge", merge),
  ("value", value)]

def ofName (s : String) : Tag := ((names.find? fun (n, _) => standard ++ n = s).map (·.2)).getD (other s)

def name : Tag → String
  | other s => s
  | t => standard ++ ((names.find? fun (_, u) => u = t).map (·.1)).getD ""

end Tag

/-! ## Scalars without a tag -/

/-- Whether a character is a decimal digit or an underscore. -/
def isDigitOrLine (ch : Char) : Bool := Json.isDigit ch || ch == '_'

/-- A text without a sign at its front. -/
def unsigned : List Char → List Char
  | '-' :: rest => rest
  | '+' :: rest => rest
  | cs => cs

/-- Whether a text is not empty and has characters of a class only. -/
def consistsOf (ok : Char → Bool) (cs : List Char) : Bool := !cs.isEmpty && cs.all ok

/-- Cuts a text at each colon. -/
def splitColons (cs : List Char) : List (List Char) :=
  cs.foldr (fun ch parts => match parts with
    | [] => [[ch]]
    | part :: rest => if ch == ':' then [] :: part :: rest else (ch :: part) :: rest) [[]]

/-- Whether a text is a number of minutes or seconds. -/
def isSixtieth : List Char → Bool
  | [d] => Json.isDigit d
  | [t, d] => '0' ≤ t && t ≤ '5' && Json.isDigit d
  | _ => false

/-- Whether a text is a digit of a class, followed by digits and underscores. -/
def isNumber (first : Char → Bool) : List Char → Bool
  | ch :: rest => first ch && rest.all isDigitOrLine
  | [] => false

/-- Whether a text is a number, followed by minutes and seconds behind colons. -/
def isSexagesimal (first : Char → Bool) (cs : List Char) : Bool :=
  match splitColons cs with
  | head :: part :: rest => isNumber first head && (part :: rest).all isSixtieth
  | _ => false

/-- Whether a character is a decimal digit other than zero. -/
def isNonzeroDigit (ch : Char) : Bool := '1' ≤ ch && ch ≤ '9'

def isIntText (cs : List Char) : Bool :=
  let cs := unsigned cs
  (match cs with
    | '0' :: 'b' :: rest => consistsOf (fun ch => ch == '0' || ch == '1' || ch == '_') rest
    | '0' :: 'x' :: rest => consistsOf (fun ch => (Json.hexValue? ch).isSome || ch == '_') rest
    | ['0'] => true
    | '0' :: rest => consistsOf (fun ch => ('0' ≤ ch && ch ≤ '7') || ch == '_') rest
    | _ => isNumber isNonzeroDigit cs) || isSexagesimal isNonzeroDigit cs

/-- Whether a text is empty or an exponent with a sign. -/
def isExponent : List Char → Bool
  | [] => true
  | e :: sign :: rest =>
    (e == 'e' || e == 'E') && (sign == '-' || sign == '+') && consistsOf Json.isDigit rest
  | _ => false

/-- Whether a text is a fraction behind a point, with an exponent or without. -/
def isFraction (cs : List Char) : Bool := isExponent (cs.dropWhile isDigitOrLine)

/-- Whether a text is a number with a point. -/
def isFloatText (cs : List Char) : Bool :=
  let bare := unsigned cs
  let whole := bare.takeWhile (· != '.')
  (match bare.dropWhile (· != '.') with
    | _ :: fraction =>
      (isNumber Json.isDigit whole && isFraction fraction) ||
        (isSexagesimal Json.isDigit whole && fraction.all isDigitOrLine)
    | [] => false) ||
  (match cs with
    | '.' :: d :: rest => Json.isDigit d && isFraction rest
    | _ => false) ||
  [".inf", ".Inf", ".INF"].contains (String.ofList bare) ||
  [".nan", ".NaN", ".NAN"].contains (String.ofList cs)

/-- The words for truth values. -/
def boolWords : List (String × Bool) := [
  ("yes", true), ("Yes", true), ("YES", true), ("no", false), ("No", false), ("NO", false),
  ("true", true), ("True", true), ("TRUE", true), ("false", false), ("False", false), ("FALSE", false),
  ("on", true), ("On", true), ("ON", true), ("off", false), ("Off", false), ("OFF", false)]

def nullWords : List String := ["~", "null", "Null", "NULL", ""]

/-! ## Dates -/

/-- The parts of a date, and of a time of day if there is one: hour, minute, second, the digits of a fraction and
the distance from universal time in minutes. -/
structure DateText where
  year : Nat
  month : Nat
  day : Nat
  /-- Whether month and day have two digits each. -/
  isFull : Bool
  time : Option (Nat × Nat × Nat × List Char × Option Int) := none

/-- A number of at least and at most so many digits, and the rest. -/
def digitsBetween (least most : Nat) (cs : List Char) : Option (Nat × Nat × List Char) :=
  let digits := (cs.take most).takeWhile Json.isDigit
  if least ≤ digits.length then some (Json.digitsValue digits, digits.length, cs.drop digits.length) else none

/-- Passes over a given character. -/
def expectChar (ch : Char) : List Char → Option (List Char)
  | c :: rest => if c = ch then some rest else none
  | [] => none

def isBlankOrTab (ch : Char) : Bool := ch == ' ' || ch == '\t'

/-- The distance from universal time at the end of a text, in minutes. -/
def zoneOf (cs : List Char) : Option (Option Int) :=
  match cs with
  | [] => some none
  | _ =>
    match cs.dropWhile isBlankOrTab with
    | ['Z'] => some (some 0)
    | sign :: rest =>
      if sign = '+' ∨ sign = '-' then do
        let (hours, _, rest) ← digitsBetween 1 2 rest
        let minutes ← match rest with
          | [] => some 0
          | ':' :: rest => match digitsBetween 2 2 rest with
            | some (n, _, []) => some n
            | _ => none
          | _ => none
        let total : Int := hours * 60 + minutes
        return some (if sign = '-' then -total else total)
      else none
    | [] => none

/-- The time of day at the end of a text, behind a `T` or blanks. -/
def timeOf (cs : List Char) : Option (Nat × Nat × Nat × List Char × Option Int) := do
  let rest ← match cs with
    | 'T' :: rest => some rest
    | 't' :: rest => some rest
    | ch :: rest => if isBlankOrTab ch then some (rest.dropWhile isBlankOrTab) else none
    | [] => none
  let (hour, _, rest) ← digitsBetween 1 2 rest
  let (minute, _, rest) ← digitsBetween 2 2 (← expectChar ':' rest)
  let (second, _, rest) ← digitsBetween 2 2 (← expectChar ':' rest)
  let (fraction, rest) := match rest with
    | '.' :: rest => (rest.takeWhile Json.isDigit, rest.dropWhile Json.isDigit)
    | rest => ([], rest)
  return (hour, minute, second, fraction, ← zoneOf rest)

def dateOf (cs : List Char) : Option DateText := do
  let (year, _, rest) ← digitsBetween 4 4 cs
  let (month, monthLength, rest) ← digitsBetween 1 2 (← expectChar '-' rest)
  let (day, dayLength, rest) ← digitsBetween 1 2 (← expectChar '-' rest)
  let date : DateText := { year, month, day, isFull := monthLength = 2 ∧ dayLength = 2 }
  if rest.isEmpty then return date else return { date with time := some (← timeOf rest) }

/-- Whether a text without a tag is a date: one without a time must have all its digits. -/
def isDateText (cs : List Char) : Bool := (dateOf cs).any fun d => d.isFull || d.time.isSome

/-- The tag of a plain scalar, from its text. -/
def implicitTag (text : String) : Tag :=
  let cs := text.toList
  if boolWords.any (·.1 = text) then .bool
  else if isFloatText cs then .float
  else if isIntText cs then .int
  else if text = "<<" then .merge
  else if nullWords.contains text then .null
  else if isDateText cs then .timestamp
  else if text = "=" then .value
  else .str

end SourceAudit.Yaml
