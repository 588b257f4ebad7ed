import SourceAudit.Yaml.Error

/-!
# Reading positions in YAML texts

A cursor holds the characters that are left and where the first of them stands. Line ends are newlines, next lines
and the line and paragraph separators; a byte order mark takes no column.
-/
namespace SourceAudit.Yaml

/-- Whether a character ends a line. -/
def isBreak (c : Char) : Bool := c == '\n' || c.toNat == 0x85 || c.toNat == 0x2028 || c.toNat == 0x2029

/-- Whether a character is a blank or ends a line. -/
def isSpace (c : Char) : Bool := c == ' ' || c == '\t' || isBreak c

def byteOrderMark : Char := '\uFEFF'

/-- Whether a character may occur in a YAML text. -/
def isAllowed (c : Char) : Bool :=
  let n := c.toNat
  n == 0x09 || n == 0x0A || n == 0x0D || (0x20 ≤ n && n ≤ 0x7E) || n == 0x85 || (0xA0 ≤ n && n ≤ 0xD7FF) ||
    (0xE000 ≤ n && n ≤ 0xFFFD) || 0x10000 ≤ n

/-- The characters that are left and where the first of them stands. -/
structure Cursor where
  rest : List Char
  index : Nat := 0
  line : Nat := 0
  column : Nat := 0
  deriving Inhabited

namespace Cursor

def mark (c : Cursor) : Mark := ⟨c.line, c.column⟩

/-- The next character. -/
def peek (c : Cursor) : Option Char := c.rest.head?

/-- The character behind the next one. -/
def second (c : Cursor) : Option Char := c.rest.tail.head?

/-- Whether the next character is a given one. -/
def sees (c : Cursor) (ch : Char) : Bool := c.peek == some ch

/-- The cursor past one character. -/
def step (c : Cursor) : Cursor :=
  match c.rest with
  | [] => c
  | ch :: rest =>
    if isBreak ch then ⟨rest, c.index + 1, c.line + 1, 0⟩
    else if ch == byteOrderMark then { c with rest, index := c.index + 1 }
    else { c with rest, index := c.index + 1, column := c.column + 1 }

/-- The cursor past some characters. -/
def steps : Nat → Cursor → Cursor
  | 0, c => c
  | n + 1, c => steps n c.step

/-- The characters at the front that have a property, and the cursor past them. -/
def span (p : Char → Bool) (c : Cursor) : List Char × Cursor :=
  let taken := c.rest.takeWhile p
  (taken, c.steps taken.length)

/-- The cursor past the characters at the front that have a property. -/
def skip (p : Char → Bool) (c : Cursor) : Cursor := (c.span p).2

/-- Passes over a line end, if one is next. A newline and a next line are read as a newline, a separator as
itself. -/
def lineBreak (c : Cursor) : List Char × Cursor :=
  match c.peek with
  | some ch => if isBreak ch then ([if ch.toNat == 0x85 then '\n' else ch], c.step) else ([], c)
  | none => ([], c)

/-- Whether a character, or the end of the text, is a blank or ends a line. -/
def endsWord (ch : Option Char) : Bool := ch.all isSpace

/-- Whether the next three characters separate documents. -/
def atSeparator (c : Cursor) : Bool :=
  match c.rest with
  | '-' :: '-' :: '-' :: rest => endsWord rest.head?
  | '.' :: '.' :: '.' :: rest => endsWord rest.head?
  | _ => false

/-- Passes over blanks and a comment, up to the end of the line. -/
def skipComment (c : Cursor) : Cursor :=
  let c := c.skip (· == ' ')
  if c.sees '#' then c.skip (!isBreak ·) else c

end Cursor
end SourceAudit.Yaml
