import SourceAudit.Association
import SourceAudit.Json.Basic
import SourceAudit.Number.Decimal
import SourceAudit.Number.Numeral
import SourceAudit.Text.Quoted

/-!
# Data

The values that a configuration file can hold. Beside the JSON values there are bytes, days and moments, sets and
pairs, and the keys of a table may be any value that is not itself a list, a set or a table.
-/
namespace SourceAudit

structure Day where
  year : Nat
  month : Nat
  day : Nat
  deriving DecidableEq, Repr, Inhabited

/-- A moment of a day, with its distance from universal time in minutes if that is known. -/
structure Moment where
  day : Day
  hour : Nat
  minute : Nat
  second : Nat
  microsecond : Nat := 0
  offset : Option Int := none
  deriving DecidableEq, Repr, Inhabited

/-- A value of a configuration file. -/
inductive Datum where
  | null
  | bool (b : Bool)
  | int (n : Int)
  | real (x : Binary64)
  | text (s : String)
  | bytes (bs : List UInt8)
  | day (d : Day)
  | moment (m : Moment)
  | list (items : List Datum)
  | pair (first second : Datum)
  | set (items : List Datum)
  | table (entries : List (Datum × Datum))
  deriving Inhabited, Repr

/-- A number in decimal with leading zeros up to a width. -/
def zeroPadded (width n : Nat) : String :=
  let digits := Nat.toDigits 10 n
  String.ofList (List.replicate (width - digits.length) '0' ++ digits)

def Day.text (d : Day) : String := zeroPadded 4 d.year ++ "-" ++ zeroPadded 2 d.month ++ "-" ++ zeroPadded 2 d.day

/-- A distance from universal time as text. -/
def offsetText (minutes : Int) : String :=
  (if minutes < 0 then "-" else "+") ++ zeroPadded 2 (minutes.natAbs / 60) ++ ":" ++
    zeroPadded 2 (minutes.natAbs % 60)

def Moment.text (m : Moment) : String :=
  m.day.text ++ " " ++ zeroPadded 2 m.hour ++ ":" ++ zeroPadded 2 m.minute ++ ":" ++ zeroPadded 2 m.second ++
    (if m.microsecond = 0 then "" else "." ++ zeroPadded 6 m.microsecond) ++ m.offset.elim "" offsetText

/-- Texts between commas. -/
def commaSeparated (xs : List String) : String := ", ".intercalate xs

/-- A day as it is shown inside another value. -/
def Day.literal (d : Day) : String := "datetime.date(" ++ commaSeparated ([d.year, d.month, d.day].map toString) ++ ")"

/-- A span of minutes as it is shown inside another value. -/
def spanLiteral (minutes : Int) : String :=
  let days := minutes.fdiv 1440
  let seconds := minutes.fmod 1440 * 60
  let parts := (if days = 0 then [] else ["days=" ++ toString days]) ++
    (if seconds = 0 then [] else ["seconds=" ++ toString seconds])
  "datetime.timedelta(" ++ (if parts.isEmpty then "0" else commaSeparated parts) ++ ")"

/-- A moment as it is shown inside another value. -/
def Moment.literal (m : Moment) : String :=
  let seconds := if m.microsecond ≠ 0 then [m.second, m.microsecond] else if m.second ≠ 0 then [m.second] else []
  let offset := match m.offset with
    | none => []
    | some 0 => ["tzinfo=datetime.timezone.utc"]
    | some minutes => ["tzinfo=datetime.timezone(" ++ spanLiteral minutes ++ ")"]
  "datetime.datetime(" ++
    commaSeparated (([m.day.year, m.day.month, m.day.day, m.hour, m.minute] ++ seconds).map toString ++ offset) ++ ")"

/-- Bytes as they are shown inside another value. -/
def bytesLiteral (bs : List UInt8) : String :=
  let cs := bs.map fun b => Char.ofNat b.toNat
  let quote := if cs.contains '\'' && !cs.contains '"' then '"' else '\''
  let shown (c : Char) : String :=
    if 0x7F ≤ c.toNat then "\\x" ++ Text.hex 2 c.toNat else Text.quoteChar quote c
  "b" ++ String.singleton quote ++ String.join (cs.map shown) ++ String.singleton quote

namespace Datum

mutual
/-- A value as it is shown inside another. -/
def literal : Datum → String
  | .null => "None"
  | .bool b => if b then "True" else "False"
  | .int n => toString n
  | .real x => x.text
  | .text s => Text.quoted s
  | .bytes bs => bytesLiteral bs
  | .day d => d.literal
  | .moment m => m.literal
  | .list items => "[" ++ commaSeparated (literals items) ++ "]"
  | .pair a b => "(" ++ literal a ++ ", " ++ literal b ++ ")"
  | .set [] => "set()"
  | .set items => "\x7b" ++ commaSeparated (literals items) ++ "\x7d"
  | .table entries => "\x7b" ++ commaSeparated (entryLiterals entries) ++ "\x7d"

/-- Items as they are shown. -/
def literals : List Datum → List String
  | [] => []
  | v :: rest => literal v :: literals rest

/-- Entries as they are shown. -/
def entryLiterals : List (Datum × Datum) → List String
  | [] => []
  | (k, v) :: rest => (literal k ++ ": " ++ literal v) :: entryLiterals rest
end

/-- A value as it is shown in a sentence. -/
def display : Datum → String
  | .text s => s
  | .day d => d.text
  | .moment m => m.text
  | v => v.literal

mutual
/-- Whether the integers in a value are short enough to be shown. -/
def isShowable : Datum → Bool
  | .int n => n.natAbs < Nat.pow 10 Numeral.maxDigits
  | .list items => areShowable items
  | .pair a b => isShowable a && isShowable b
  | .set items => areShowable items
  | .table entries => entriesShowable entries
  | _ => true

/-- Whether the integers in some values are short enough. -/
def areShowable : List Datum → Bool
  | [] => true
  | v :: rest => isShowable v && areShowable rest

/-- Whether the integers in some entries are short enough. -/
def entriesShowable : List (Datum × Datum) → Bool
  | [] => true
  | (k, v) :: rest => isShowable k && isShowable v && entriesShowable rest
end

/-- The name of a value's kind. -/
def kindName : Datum → String
  | .null => "NoneType"
  | .bool _ => "bool"
  | .int _ => "int"
  | .real _ => "float"
  | .text _ => "str"
  | .bytes _ => "bytes"
  | .day _ => "datetime.date"
  | .moment _ => "datetime.datetime"
  | .list _ => "list"
  | .pair .. => "tuple"
  | .set _ => "set"
  | .table _ => "dict"

/-- Whether a value can be the key of a table. -/
def isKey : Datum → Bool
  | .list _ | .set _ | .table _ => false
  | .pair a b => a.isKey && b.isKey
  | _ => true

/-- A truth value or an integer as an integer. -/
def integer? : Datum → Option Int
  | .bool b => some (if b then 1 else 0)
  | .int n => some n
  | _ => none

/-- Whether two values are the same key. Numbers are compared by value, truth values count as numbers. -/
def sameKey : Datum → Datum → Bool
  | .null, .null => true
  | .text a, .text b => a = b
  | .bytes a, .bytes b => a = b
  | .day a, .day b => a = b
  | .moment a, .moment b => a = b
  | .pair a b, .pair c d => a.sameKey c && b.sameKey d
  | .real x, .real y => x.equals y
  | .real x, b => b.integer?.any (x.equalsInt ·)
  | a, .real y => a.integer?.any (y.equalsInt ·)
  | a, b =>
    match a.integer?, b.integer? with
    | some m, some n => m = n
    | _, _ => false

/-- Sets the value of a key: a new key goes to the end, a key that is present keeps its place. -/
def setEntry (key value : Datum) : List (Datum × Datum) → List (Datum × Datum)
  | [] => [(key, value)]
  | (k, v) :: rest => if k.sameKey key then (k, value) :: rest else (k, v) :: setEntry key value rest

mutual
def ofJson : Json → Datum
  | .null => .null
  | .bool b => .bool b
  | .int n => .int n
  | .real x => .real x
  | .string s => .text s
  | .array items => .list (ofItems items)
  | .object members => .table (ofMembers members)

/-- JSON values as data. -/
def ofItems : List Json → List Datum
  | [] => []
  | v :: rest => ofJson v :: ofItems rest

/-- The members of a JSON object as entries. -/
def ofMembers : List (String × Json) → List (Datum × Datum)
  | [] => []
  | (name, v) :: rest => (.text name, ofJson v) :: ofMembers rest
end

end Datum
end SourceAudit
