import SourceAudit.Json.Basic
import SourceAudit.Number.Decimal

/-!
# Writing JSON

All output is ASCII: other characters are written as one or two `\u` escapes of four lower-case hexadecimal
digits. `compact` writes a value on one line, with a blank after each comma and colon. `pretty` writes one item
a line, indented by two blanks a level; what is empty stays on its line.
-/
namespace SourceAudit.Json

/-- Four lower-case hexadecimal digits. -/
def hex4 (n : Nat) : List Char :=
  [n / 0x1000 % 16, n / 0x100 % 16, n / 0x10 % 16, n % 16].map Nat.digitChar

def unicodeEscape (n : Nat) : List Char := '\\' :: 'u' :: hex4 n

/-- One character inside a string. -/
def escapeChar (c : Char) : List Char :=
  if c = '"' then ['\\', '"']
  else if c = '\\' then ['\\', '\\']
  else if c = '\n' then ['\\', 'n']
  else if c = '\r' then ['\\', 'r']
  else if c = '\t' then ['\\', 't']
  else if c.toNat = 0x08 then ['\\', 'b']
  else if c.toNat = 0x0C then ['\\', 'f']
  else if 0x20 ≤ c.toNat ∧ c.toNat < 0x7F then [c]
  else if c.toNat < 0x10000 then unicodeEscape c.toNat
  else
    let n := c.toNat - 0x10000
    unicodeEscape (0xD800 + n / 0x400) ++ unicodeEscape (0xDC00 + n % 0x400)

/-- A string between quotes. -/
def writeString (s : String) : List Char := '"' :: (s.toList.flatMap escapeChar ++ ['"'])

/-- An integer in decimal. -/
def writeInt (n : Int) : List Char :=
  if n < 0 then '-' :: Nat.toDigits 10 n.natAbs else Nat.toDigits 10 n.natAbs

/-- A floating-point number, with names for the values that are none. -/
def writeReal : Binary64 → List Char
  | .nan => "NaN".toList
  | .infinite negative => if negative then "-Infinity".toList else "Infinity".toList
  | x => x.text.toList

mutual
/-- A value on one line. -/
def compactChars : Json → List Char
  | .null => "null".toList
  | .bool b => if b then "true".toList else "false".toList
  | .int n => writeInt n
  | .real x => writeReal x
  | .string s => writeString s
  | .array items => '[' :: (compactItems items ++ [']'])
  | .object members => '{' :: (compactMembers members ++ ['}'])

/-- Items between commas. -/
def compactItems : List Json → List Char
  | [] => []
  | [v] => compactChars v
  | v :: rest => compactChars v ++ (',' :: ' ' :: compactItems rest)

/-- Members between commas. -/
def compactMembers : List (String × Json) → List Char
  | [] => []
  | [(name, v)] => writeString name ++ (':' :: ' ' :: compactChars v)
  | (name, v) :: rest => writeString name ++ (':' :: ' ' :: (compactChars v ++ (',' :: ' ' :: compactMembers rest)))
end

/-- A line end and the indentation of a level. -/
def newline (level : Nat) : List Char := '\n' :: List.replicate (2 * level) ' '

mutual
/-- A value whose items stand one a line, one level deeper than `level`. -/
def prettyChars (level : Nat) : Json → List Char
  | .null => "null".toList
  | .bool b => if b then "true".toList else "false".toList
  | .int n => writeInt n
  | .real x => writeReal x
  | .string s => writeString s
  | .array [] => ['[', ']']
  | .array (v :: rest) =>
    '[' :: (newline (level + 1) ++ (prettyChars (level + 1) v ++ prettyItems (level + 1) rest)) ++
      (newline level ++ [']'])
  | .object [] => ['{', '}']
  | .object ((name, v) :: rest) =>
    '{' :: (newline (level + 1) ++
        (writeString name ++ (':' :: ' ' :: (prettyChars (level + 1) v ++ prettyMembers (level + 1) rest)))) ++
      (newline level ++ ['}'])

/-- The items after the first, each behind a comma on a line of its own. -/
def prettyItems (level : Nat) : List Json → List Char
  | [] => []
  | v :: rest => ',' :: (newline level ++ (prettyChars level v ++ prettyItems level rest))

/-- The members after the first, each behind a comma on a line of its own. -/
def prettyMembers (level : Nat) : List (String × Json) → List Char
  | [] => []
  | (name, v) :: rest =>
    ',' :: (newline level ++
      (writeString name ++ (':' :: ' ' :: (prettyChars level v ++ prettyMembers level rest))))
end

/-- A value on one line. -/
def compact (v : Json) : String := String.ofList (compactChars v)

/-- A value with one item a line. -/
def pretty (v : Json) : String := String.ofList (prettyChars 0 v)

end SourceAudit.Json
