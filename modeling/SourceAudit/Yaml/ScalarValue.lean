import SourceAudit.Datum
import SourceAudit.Number.Numeral
import SourceAudit.Yaml.Error
import SourceAudit.Yaml.Tag

/-!
# Values of scalars

The value of a scalar, by its tag. A scalar may carry a tag that its text does not fit; reading it then fails with
the wording of what went wrong.
-/
namespace SourceAudit.Yaml

/-- A text without underscores. -/
def withoutLines (cs : List Char) : List Char := cs.filter (· != '_')

def digitIn? (base : Nat) (ch : Char) : Option Nat :=
  ((Json.hexValue? ch).or (Text.decimalValue? ch)).filter (· < base)

/-- The letter that may mark the base of a numeral, behind a zero. -/
def baseMark (base : Nat) : Char := if base = 2 then 'b' else if base = 8 then 'o' else 'x'

/-- Digits without the mark of their base. -/
def withoutMark (base : Nat) : List Char → List Char
  | '0' :: letter :: rest => if letter.toLower = baseMark base then rest else '0' :: letter :: rest
  | cs => cs

def numberIn (base : Nat) (cs : List Char) : Except Error Int :=
  let (negative, body) := Numeral.splitSign (Numeral.unpadded (String.ofList cs))
  let digits := (withoutMark base body).map (digitIn? base)
  if digits.isEmpty || digits.any (·.isNone) then
    .error (.value ("invalid literal for int() with base " ++ toString base ++ ": " ++ Text.quoted (String.ofList cs)))
  else
    let value : Nat := (digits.filterMap id).foldl (fun n d => base * n + d) 0
    .ok (if negative then -value else value)

/-- An integer of a numeral. -/
def readIntOf (cs : List Char) : Except Error Int :=
  match Numeral.readInt (String.ofList cs) with
  | .ok n => .ok n
  | .error e => .error (.value e.message)

def readRealOf (cs : List Char) : Except Error Binary64 :=
  match Numeral.readReal (String.ofList cs) with
  | .ok x => .ok x
  | .error e => .error (.value e.message)

/-- The value of numbers to the base sixty. -/
def sexagesimal (parts : List Int) : Int := parts.foldl (fun n d => 60 * n + d) 0

/-- The value of real numbers to the base sixty, added up from the last one on. -/
def sexagesimalReal (parts : List Binary64) : Binary64 :=
  (parts.reverse.foldl (fun (sum, base) x => (sum.addMul base x, base * 60)) (Binary64.ofInt 0, 1)).1

/-- An integer with its sign split off. -/
def unsignedInt (cs : List Char) : Except Error Int :=
  match cs with
  | ['0'] => .ok 0
  | '0' :: 'b' :: rest => numberIn 2 rest
  | '0' :: 'x' :: rest => numberIn 16 rest
  | '0' :: rest => numberIn 8 ('0' :: rest)
  | cs =>
    if cs.contains ':' then return sexagesimal (← (splitColons cs).mapM readIntOf)
    else readIntOf cs

def intValue (text : String) : Except Error Datum :=
  match withoutLines text.toList with
  | [] => .error .emptyNumber
  | '-' :: rest => return .int (-(← unsignedInt rest))
  | '+' :: rest => return .int (← unsignedInt rest)
  | cs => return .int (← unsignedInt cs)

/-- A number with its sign split off, in lower case. -/
def unsignedReal (cs : List Char) : Except Error Binary64 :=
  if cs = ".inf".toList then .ok (.infinite false)
  else if cs = ".nan".toList then .ok .nan
  else if cs.contains ':' then return sexagesimalReal (← (splitColons cs).mapM readRealOf)
  else readRealOf cs

/-- The value of a number with a point. -/
def realValue (text : String) : Except Error Datum :=
  match (withoutLines text.toList).map Char.toLower with
  | [] => .error .emptyNumber
  | '-' :: rest => return .real (← unsignedReal rest).negate
  | '+' :: rest => return .real (← unsignedReal rest)
  | cs => return .real (← unsignedReal cs)

/-- The value of a truth value, in any case. -/
def boolValue (text : String) : Except Error Datum :=
  let word := String.ofList (text.toList.map Char.toLower)
  match boolWords.lookup word with
  | some b => .ok (.bool b)
  | none => .error (.noBool word)

/-- Whether a year has a day more in February. -/
def isLeap (year : Nat) : Bool := year % 4 = 0 && (year % 100 ≠ 0 || year % 400 = 0)

def daysIn (year month : Nat) : Nat :=
  if month = 2 then (if isLeap year then 29 else 28) else if [4, 6, 9, 11].contains month then 30 else 31

/-- The microseconds of the digits of a fraction, of which six count. -/
def microseconds (fraction : List Char) : Nat :=
  let digits := fraction.take 6
  Json.digitsValue digits * Nat.pow 10 (6 - digits.length)

def dateValue (text : String) : Except Error Datum :=
  match dateOf text.toList with
  | none => .error .noMoment
  | some d =>
    let refuse {α : Type} (message : String) : Except Error α := .error (.value message)
    let zone := (d.time.bind (·.2.2.2.2)).filter fun minutes => minutes.natAbs ≥ 1440
    match zone with
    | some minutes =>
      refuse ("offset must be a timedelta strictly between -timedelta(hours=24) and timedelta(hours=24), not " ++
        spanLiteral minutes ++ ".")
    | none =>
      if d.year = 0 then refuse "year 0 is out of range"
      else if d.month = 0 ∨ d.month > 12 then refuse "month must be in 1..12"
      else if d.day = 0 ∨ d.day > daysIn d.year d.month then refuse "day is out of range for month"
      else
        let day : Day := ⟨d.year, d.month, d.day⟩
        match d.time with
        | none => .ok (.day day)
        | some (hour, minute, second, fraction, offset) =>
          if hour > 23 then refuse "hour must be in 0..23"
          else if minute > 59 then refuse "minute must be in 0..59"
          else if second > 59 then refuse "second must be in 0..59"
          else .ok (.moment { day, hour, minute, second, microsecond := microseconds fraction, offset })

def base64Value? (ch : Char) : Option Nat :=
  if 'A' ≤ ch ∧ ch ≤ 'Z' then some (ch.toNat - 'A'.toNat)
  else if 'a' ≤ ch ∧ ch ≤ 'z' then some (ch.toNat - 'a'.toNat + 26)
  else if '0' ≤ ch ∧ ch ≤ '9' then some (ch.toNat - '0'.toNat + 52)
  else if ch = '+' then some 62
  else if ch = '/' then some 63
  else none

/-- The bytes of values in base 64, four at a time; the last may be fewer. -/
def base64Bytes : List Nat → Option (List UInt8)
  | [] => some []
  | [_] => none
  | [a, b] => some [(a * 4 + b / 16).toUInt8]
  | [a, b, c] => some [(a * 4 + b / 16).toUInt8, (b * 16 + c / 4).toUInt8]
  | a :: b :: c :: d :: rest =>
    (base64Bytes rest).map fun bs =>
      (a * 4 + b / 16).toUInt8 :: (b * 16 + c / 4).toUInt8 :: (c * 64 + d).toUInt8 :: bs

/-- The value of bytes in base 64. -/
def binaryValue (text : String) (mark : Mark) : Except Error Datum :=
  let cs := text.toList.takeWhile (· != '=')
  let values := cs.filterMap base64Value?
  let padding := (text.toList.filter (· == '=')).length
  match base64Bytes values with
  | some bs =>
    if values.length % 4 = 0 || values.length % 4 + padding ≥ 4 then .ok (.bytes bs)
    else .error (.problem none .malformedEscape mark)
  | none => .error (.problem none .malformedEscape mark)

def scalarValue (tag : Tag) (text : String) (mark : Mark) : Except Error Datum :=
  match tag with
  | .null => .ok .null
  | .bool => boolValue text
  | .int => intValue text
  | .float => realValue text
  | .binary => binaryValue text mark
  | .timestamp => dateValue text
  | .str => .ok (.text text)
  | .omap => .error (.problem (some (.orderedMap, some mark)) (.expected "a sequence," "but found scalar") mark)
  | .pairs => .error (.problem (some (.pairs, some mark)) (.expected "a sequence," "but found scalar") mark)
  | .seq => .error (.problem none (.expected "a sequence node," "but found scalar") mark)
  | .set | .map => .error (.problem none (.expected "a mapping node," "but found scalar") mark)
  | .merge | .value | .other _ => .error (.problem none (.undefinedTag tag.name) mark)

end SourceAudit.Yaml
