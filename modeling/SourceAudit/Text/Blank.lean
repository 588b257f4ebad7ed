/-!
# Blanks

White space of any script: tabs and line ends, the information separators, the spaces of every width and the
line and paragraph separators. A zero-width space and a byte order mark are no blanks.
-/
namespace SourceAudit.Text

/-- White space of any script. -/
def isBlank (c : Char) : Bool :=
  let n := c.toNat
  (0x09 ≤ n && n ≤ 0x0D) || (0x1C ≤ n && n ≤ 0x20) || n == 0x85 || n == 0xA0 || n == 0x1680 ||
    (0x2000 ≤ n && n ≤ 0x200A) || n == 0x2028 || n == 0x2029 || n == 0x202F || n == 0x205F || n == 0x3000

/-- A text without the blanks at its two ends. -/
def trim (cs : List Char) : List Char :=
  ((cs.dropWhile isBlank).reverse.dropWhile isBlank).reverse

/-- Puts one character in front of a text that is already split into words: `none` in front of the words
marks that a blank stood there. -/
def pushWord (c : Char) : Option (List Char) × List (List Char) → Option (List Char) × List (List Char)
  | (some word, rest) => if isBlank c then (none, word :: rest) else (some (c :: word), rest)
  | (none, rest) => if isBlank c then (none, rest) else (some [c], rest)

/-- The words of a text: what stands between runs of blanks. -/
def words (s : String) : List String :=
  match s.toList.foldr pushWord (none, []) with
  | (some word, rest) => (word :: rest).map String.ofList
  | (none, rest) => rest.map String.ofList

end SourceAudit.Text
