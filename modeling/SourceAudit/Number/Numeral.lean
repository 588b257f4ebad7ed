import SourceAudit.Number.Binary64
import SourceAudit.Text.Blank
import SourceAudit.Text.DecimalDigit
import SourceAudit.Text.Quoted

/-!
# Numbers written as text

The texts that are read as numbers: blanks around them are dropped, digits may come from any script, and a
single underscore may stand between two digits.

* `readInt`: a sign and digits.
* `readReal`: a sign and digits with a point and an exponent, or one of the words for infinity and for not a
  number in any case.
-/
namespace SourceAudit.Numeral

inductive Fault where
  /-- The text has not the form of an integer. -/
  | notInteger (text : String)
  /-- The text has not the form of a real number. -/
  | notReal (text : String)
  /-- An integer of this many digits is not read. -/
  | tooManyDigits (count : Nat)
  deriving DecidableEq, Repr

/-- The longest integer that is read. -/
def maxDigits : Nat := 4300

/-- How much of a text that is no integer is shown. -/
def maxShown : Nat := 200

def Fault.message : Fault → String
  | .notInteger text =>
    "invalid literal for int() with base 10: " ++ String.ofList ((Text.quoted text).toList.take maxShown)
  | .notReal text => "could not convert string to float: " ++ Text.quoted text
  | .tooManyDigits count =>
    "Exceeds the limit (4300 digits) for integer string conversion: value has " ++ toString count ++
      " digits; use sys.set_int_max_str_digits() to increase the limit"

/-- Blanks around a number. The information separators do not count among them. -/
def isPadding (c : Char) : Bool := Text.isBlank c && !(0x1C ≤ c.toNat && c.toNat ≤ 0x1F)

/-- A text without the padding at its two ends. -/
def unpadded (s : String) : List Char :=
  ((s.toList.dropWhile isPadding).reverse.dropWhile isPadding).reverse

/-- Splits off a sign: whether the number is negative, and what follows the sign. -/
def splitSign : List Char → Bool × List Char
  | '-' :: rest => (true, rest)
  | '+' :: rest => (false, rest)
  | cs => (false, cs)

/-- The digits that follow a digit, most significant first, and the rest. An underscore in front of a digit
is passed over. -/
def moreDigits : List Char → List Nat × List Char
  | [] => ([], [])
  | '_' :: c :: rest =>
    match Text.decimalValue? c with
    | some d => let (ds, tail) := moreDigits rest; (d :: ds, tail)
    | none => ([], '_' :: c :: rest)
  | c :: rest =>
    match Text.decimalValue? c with
    | some d => let (ds, tail) := moreDigits rest; (d :: ds, tail)
    | none => ([], c :: rest)

/-- The digits at the front of a text, most significant first, and the rest. -/
def splitDigits : List Char → List Nat × List Char
  | [] => ([], [])
  | c :: rest =>
    match Text.decimalValue? c with
    | some d => let (ds, tail) := moreDigits rest; (d :: ds, tail)
    | none => ([], c :: rest)

/-- The value of digits, most significant first. -/
def valueOf (digits : List Nat) : Nat := digits.foldl (fun n d => 10 * n + d) 0

def readInt (s : String) : Except Fault Int :=
  let (negative, cs) := splitSign (unpadded s)
  match splitDigits cs with
  | ([], _) => .error (.notInteger s)
  | (ds, []) =>
    if ds.length > maxDigits then .error (.tooManyDigits ds.length)
    else .ok (if negative then -(valueOf ds : Int) else valueOf ds)
  | _ => .error (.notInteger s)

/-- Reads an exponent: `e`, a sign and digits. No exponent is the exponent zero. -/
def splitExponent : List Char → Option (Int × List Char)
  | [] => some (0, [])
  | c :: rest =>
    if c = 'e' || c = 'E' then
      let (negative, cs) := splitSign rest
      match splitDigits cs with
      | ([], _) => none
      | (ds, tail) => some (if negative then -(valueOf ds : Int) else valueOf ds, tail)
    else some (0, c :: rest)

/-- Reads an unsigned decimal with an optional point and exponent. -/
def readDecimal? (negative : Bool) (cs : List Char) : Option Binary64 :=
  let (whole, rest) := splitDigits cs
  let (frac, rest) := match rest with
    | '.' :: rest' => splitDigits rest'
    | _ => ([], rest)
  if whole.isEmpty && frac.isEmpty then none
  else
    match splitExponent rest with
    | some (e, []) => some (.ofDecimal negative (valueOf (whole ++ frac)) (e - frac.length))
    | _ => none

def readReal (s : String) : Except Fault Binary64 :=
  let (negative, cs) := splitSign (unpadded s)
  let word := String.ofList (cs.map Char.toLower)
  if word = "inf" || word = "infinity" then .ok (.infinite negative)
  else if word = "nan" then .ok .nan
  else
    match readDecimal? negative cs with
    | some x => .ok x
    | none => .error (.notReal s)

end SourceAudit.Numeral
