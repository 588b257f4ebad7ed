import SourceAudit.Json.Basic
import SourceAudit.Number.Numeral

/-!
# Reading JSON

A reader by recursive descent over the characters that are left, with the position of the next one. A text that
is refused is refused at one position, which the error names by line, column and offset.

Beyond the grammar the words `NaN`, `Infinity` and `-Infinity` are read as numbers. A name that occurs twice in
an object keeps its first place and its last value. What an escape that names half of a surrogate pair is read as is
up to the type of the texts; in a name it is replaced. Integers of too many digits and values that are nested too
deeply are refused, both within limits that the reader is given.
-/
namespace SourceAudit.Json

/-- What is wrong at a position. -/
inductive Fault where
  | byteOrderMark
  | expectedValue
  | expectedName
  | expectedColon
  | expectedComma
  | unterminatedString
  | controlCharacter
  | badEscape
  | badUnicodeEscape
  | extraData
  deriving DecidableEq, Repr

def Fault.message : Fault → String
  | .byteOrderMark => "Unexpected UTF-8 BOM (decode using utf-8-sig)"
  | .expectedValue => "Expecting value"
  | .expectedName => "Expecting property name enclosed in double quotes"
  | .expectedColon => "Expecting ':' delimiter"
  | .expectedComma => "Expecting ',' delimiter"
  | .unterminatedString => "Unterminated string starting at"
  | .controlCharacter => "Invalid control character at"
  | .badEscape => "Invalid \\escape"
  | .badUnicodeEscape => "Invalid \\uXXXX escape"
  | .extraData => "Extra data"

inductive ReadError where
  /-- The text is no JSON. Line and column count from one, the offset from zero. -/
  | malformed (fault : Fault) (line column offset : Nat)
  /-- An integer has too many digits. -/
  | tooManyDigits (count : Nat)
  /-- Arrays and objects are nested too deeply. -/
  | tooDeep
  deriving DecidableEq, Repr

def ReadError.message : ReadError → String
  | .malformed fault line column offset =>
    fault.message ++ ": line " ++ toString line ++ " column " ++ toString column ++ " (char " ++
      toString offset ++ ")"
  | .tooManyDigits count => (Numeral.Fault.tooManyDigits count).message
  | .tooDeep => "maximum recursion depth exceeded while decoding a JSON array from a unicode string"

inductive Stop where
  | at (fault : Fault) (offset : Nat)
  | tooManyDigits (count : Nat)
  | tooDeep

/-- The characters that are left and the offset of the first of them. -/
structure Cursor where
  offset : Nat
  rest : List Char

/-- What a reader refuses: integers of more than so many digits, and arrays and objects nested more than so deep. How
deep one can go depends on the reader's own surroundings. -/
structure Limits where
  digits : Option Nat := some Numeral.maxDigits
  depth : Nat := 980

/-- Whether a character is white space between tokens. -/
def isSpace (c : Char) : Bool := c == ' ' || c == '\t' || c == '\n' || c == '\r'

/-- Passes over white space. -/
def skipSpace (offset : Nat) : List Char → Cursor
  | [] => ⟨offset, []⟩
  | c :: rest => if isSpace c then skipSpace (offset + 1) rest else ⟨offset, c :: rest⟩

/-- The cursor past white space. -/
def Cursor.skip (c : Cursor) : Cursor := skipSpace c.offset c.rest

/-- The value of a hexadecimal digit. -/
def hexValue? (c : Char) : Option Nat :=
  if '0' ≤ c ∧ c ≤ '9' then some (c.toNat - '0'.toNat)
  else if 'a' ≤ c ∧ c ≤ 'f' then some (c.toNat - 'a'.toNat + 10)
  else if 'A' ≤ c ∧ c ≤ 'F' then some (c.toNat - 'A'.toNat + 10)
  else none

/-- The value of four hexadecimal digits. -/
def hexValue4? (a b c d : Char) : Option Nat := do
  let a ← hexValue? a
  let b ← hexValue? b
  let c ← hexValue? c
  let d ← hexValue? d
  return ((a * 16 + b) * 16 + c) * 16 + d

/-- The character behind a backslash, other than `u`. -/
def escaped? (c : Char) : Option Char :=
  match c with
  | '"' => some '"'
  | '\\' => some '\\'
  | '/' => some '/'
  | 'b' => some (Char.ofNat 0x08)
  | 'f' => some (Char.ofNat 0x0C)
  | 'n' => some '\n'
  | 'r' => some '\r'
  | 't' => some '\t'
  | _ => none

/-- Reads the rest of a string that began at `start`; `acc` holds what was read, last code point first. -/
def readString (start offset : Nat) (acc : List CodePoint) : List Char → Except Stop (List CodePoint × Cursor)
  | [] => .error (.at .unterminatedString start)
  | '"' :: rest => .ok (acc.reverse, ⟨offset + 1, rest⟩)
  | ['\\'] => .error (.at .unterminatedString start)
  | '\\' :: 'u' :: a :: b :: c :: d :: e :: rest =>
    match hexValue4? a b c d with
    | none => .error (.at .badUnicodeEscape (offset + 1))
    | some unit =>
      match e, rest with
      | '\\', 'u' :: a' :: b' :: c' :: d' :: e' :: rest' =>
        if 0xD800 ≤ unit ∧ unit < 0xDC00 then
          match hexValue4? a' b' c' d' with
          | none => .error (.at .badUnicodeEscape (offset + 7))
          | some low =>
            if 0xDC00 ≤ low ∧ low < 0xE000 then
              let c := CodePoint.ofUnit (0x10000 + (unit - 0xD800) * 0x400 + (low - 0xDC00))
              readString start (offset + 12) (c :: acc) (e' :: rest')
            else
              readString start (offset + 6) (CodePoint.ofUnit unit :: acc)
                ('\\' :: 'u' :: a' :: b' :: c' :: d' :: e' :: rest')
        else
          readString start (offset + 6) (CodePoint.ofUnit unit :: acc)
            ('\\' :: 'u' :: a' :: b' :: c' :: d' :: e' :: rest')
      | e, rest => readString start (offset + 6) (CodePoint.ofUnit unit :: acc) (e :: rest)
  | '\\' :: c :: rest =>
    if c = 'u' then .error (.at .badUnicodeEscape (offset + 1))
    else
      match escaped? c with
      | some c => readString start (offset + 2) (.char c :: acc) rest
      | none => .error (.at .badEscape offset)
  | c :: rest =>
    if c.toNat < 0x20 then .error (.at .controlCharacter offset)
    else readString start (offset + 1) (.char c :: acc) rest

/-- Whether a character is an ASCII digit. -/
def isDigit (c : Char) : Bool := '0' ≤ c && c ≤ '9'

/-- The digits of the whole part of a number: a single zero, or digits that start with another. -/
def splitWhole : List Char → Option (List Char × List Char)
  | '0' :: rest => some (['0'], rest)
  | c :: rest => if isDigit c then some (c :: rest.takeWhile isDigit, rest.dropWhile isDigit) else none
  | [] => none

/-- The digits behind a point, if a point and a digit follow. -/
def splitFraction : List Char → Option (List Char × List Char)
  | '.' :: c :: rest =>
    if isDigit c then some (c :: rest.takeWhile isDigit, rest.dropWhile isDigit) else none
  | _ => none

/-- The exponent, if one follows: its length as written, its value, and the rest. -/
def splitExponent : List Char → Option (Nat × Int × List Char)
  | e :: rest =>
    if e = 'e' || e = 'E' then
      let (signLength, negative, digits) := match rest with
        | '-' :: ds => (1, true, ds)
        | '+' :: ds => (1, false, ds)
        | ds => (0, false, ds)
      let ds := digits.takeWhile isDigit
      if ds.isEmpty then none
      else
        let n : Int := Numeral.valueOf (ds.map fun c => c.toNat - '0'.toNat)
        some (1 + signLength + ds.length, if negative then -n else n, digits.dropWhile isDigit)
    else none
  | [] => none

/-- The number that digits stand for. -/
def digitsValue (ds : List Char) : Nat := Numeral.valueOf (ds.map fun c => c.toNat - '0'.toNat)

variable {τ : Type}

/-- Reads a number that starts at `start`, behind its sign. An integer of more than `limit` digits is refused. -/
def readNumber (limit : Option Nat) (start : Nat) (negative : Bool) (cs : List Char) :
    Except Stop (Json τ × Cursor) :=
  match splitWhole cs with
  | none => .error (.at .expectedValue start)
  | some (whole, rest) =>
    let offset := start + (if negative then 1 else 0) + whole.length
    let (frac, rest', offset') := match splitFraction rest with
      | some (frac, rest') => (frac, rest', offset + 1 + frac.length)
      | none => ([], rest, offset)
    match splitExponent rest' with
    | some (length, e, rest'') =>
      .ok (.real (.ofDecimal negative (digitsValue (whole ++ frac)) (e - frac.length)), ⟨offset' + length, rest''⟩)
    | none =>
      if frac.isEmpty then
        if limit.any (whole.length > ·) then .error (.tooManyDigits whole.length)
        else
          let n : Int := digitsValue whole
          .ok (.int (if negative then -n else n), ⟨offset', rest'⟩)
      else .ok (.real (.ofDecimal negative (digitsValue (whole ++ frac)) (-(frac.length : Int))), ⟨offset', rest'⟩)

def words : List (List Char × Json τ) := [
  ("null".toList, .null), ("true".toList, .bool true), ("false".toList, .bool false),
  ("NaN".toList, .real .nan), ("Infinity".toList, .real (.infinite false)),
  ("-Infinity".toList, .real (.infinite true))]

/-- Reads a value that is neither a string nor an array nor an object. -/
def readScalar (limit : Option Nat) (c : Cursor) : Except Stop (Json τ × Cursor) :=
  match words.find? fun (word, _) => word.isPrefixOf c.rest with
  | some (word, v) => .ok (v, ⟨c.offset + word.length, c.rest.drop word.length⟩)
  | none =>
    match c.rest with
    | '-' :: rest => readNumber limit c.offset true rest
    | rest => readNumber limit c.offset false rest

variable [JsonText τ]

mutual
/-- Reads a value at nesting depth `depth`. The fuel bounds the number of values and items begun. -/
def readValue (limits : Limits) : (fuel depth : Nat) → Cursor → Except Stop (Json τ × Cursor)
  | 0, _, c => .error (.at .expectedValue c.offset)
  | fuel + 1, depth, c =>
    match c.rest with
    | '"' :: rest => do
      let (s, c) ← readString c.offset (c.offset + 1) [] rest
      return (.string (JsonText.ofCodePoints s), c)
    | '[' :: rest =>
      if depth ≥ limits.depth then .error .tooDeep
      else
        let c := skipSpace (c.offset + 1) rest
        match c.rest with
        | ']' :: rest => .ok (.array [], ⟨c.offset + 1, rest⟩)
        | _ => readItems limits fuel (depth + 1) [] c
    | '{' :: rest =>
      if depth ≥ limits.depth then .error .tooDeep
      else
        let c := skipSpace (c.offset + 1) rest
        match c.rest with
        | '}' :: rest => .ok (.object [], ⟨c.offset + 1, rest⟩)
        | _ => readMembers limits fuel (depth + 1) [] c
    | _ => readScalar limits.digits c

/-- Reads the items of an array from the next one on; `acc` holds the earlier ones, last first. -/
def readItems (limits : Limits) : (fuel depth : Nat) → List (Json τ) → Cursor → Except Stop (Json τ × Cursor)
  | 0, _, _, c => .error (.at .expectedValue c.offset)
  | fuel + 1, depth, acc, c => do
    let (v, c) ← readValue limits fuel depth c
    let c := c.skip
    match c.rest with
    | ']' :: rest => .ok (.array (v :: acc).reverse, ⟨c.offset + 1, rest⟩)
    | ',' :: rest => readItems limits fuel depth (v :: acc) (skipSpace (c.offset + 1) rest)
    | _ => .error (.at .expectedComma c.offset)

/-- Reads the members of an object from the next one on; `acc` holds the earlier ones. -/
def readMembers (limits : Limits) :
    (fuel depth : Nat) → List (String × Json τ) → Cursor → Except Stop (Json τ × Cursor)
  | 0, _, _, c => .error (.at .expectedValue c.offset)
  | fuel + 1, depth, acc, c =>
    match c.rest with
    | '"' :: rest => do
      let (name, c) ← readString c.offset (c.offset + 1) [] rest
      let c := c.skip
      match c.rest with
      | ':' :: rest =>
        let (v, c) ← readValue limits fuel depth (skipSpace (c.offset + 1) rest)
        let acc := Association.set (JsonText.ofCodePoints name) v acc
        let c := c.skip
        match c.rest with
        | '}' :: rest => .ok (.object acc, ⟨c.offset + 1, rest⟩)
        | ',' :: rest => readMembers limits fuel depth acc (skipSpace (c.offset + 1) rest)
        | _ => .error (.at .expectedComma c.offset)
      | _ => .error (.at .expectedColon c.offset)
    | _ => .error (.at .expectedName c.offset)
end

/-- Reads a text that holds one value and white space around it. -/
def readText (limits : Limits) (cs : List Char) : Except Stop (Json τ) := do
  match cs with
  | '\uFEFF' :: _ => .error (.at .byteOrderMark 0)
  | cs =>
    let (v, c) ← readValue limits (2 * cs.length + 2) 0 (skipSpace 0 cs)
    let c := c.skip
    match c.rest with
    | [] => .ok v
    | _ => .error (.at .extraData c.offset)

def lineAndColumn (cs : List Char) (offset : Nat) : Nat × Nat :=
  (cs.take offset).foldl (fun (line, column) c => if c = '\n' then (line + 1, 1) else (line, column + 1)) (1, 1)

/-- Reads a JSON text within limits. -/
def read (s : String) (limits : Limits := {}) : Except ReadError (Json τ) :=
  let cs := s.toList
  match readText limits cs with
  | .ok v => .ok v
  | .error (.at fault offset) =>
    let (line, column) := lineAndColumn cs offset
    .error (.malformed fault line column offset)
  | .error (.tooManyDigits count) => .error (.tooManyDigits count)
  | .error .tooDeep => .error .tooDeep

end SourceAudit.Json
