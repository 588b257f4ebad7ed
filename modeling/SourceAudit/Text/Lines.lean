/-!
# Lines

Two ways to cut a text into lines. `lines` cuts at each newline and only there, so a carriage return stays in
its line and a text with `n` newlines has `n + 1` lines. `brokenLines` cuts at every kind of line end (a
carriage return followed by a newline is one) and gives no empty last line.
-/
namespace SourceAudit.Text

/-- Puts one character in front of a text that is already cut into lines. -/
def consLine (c : Char) : List (List Char) → List (List Char)
  | [] => if c = '\n' then [[], []] else [[c]]
  | line :: rest => if c = '\n' then [] :: line :: rest else (c :: line) :: rest

/-- The lines of a text, which newlines separate. -/
def lines (cs : List Char) : List (List Char) := cs.foldr consLine [[]]

/-- Whether a character ends a line in one of the scripts and encodings that have line ends. -/
def isLineEnd (c : Char) : Bool :=
  let n := c.toNat
  (0x0A ≤ n && n ≤ 0x0D) || (0x1C ≤ n && n ≤ 0x1E) || n == 0x85 || n == 0x2028 || n == 0x2029

/-- The lines of a text, each closed by some line end or by the end of the text. `line` holds the open line,
last character first. -/
def brokenLinesFrom (line : List Char) : List Char → List String
  | [] => if line.isEmpty then [] else [String.ofList line.reverse]
  | '\r' :: '\n' :: rest => String.ofList line.reverse :: brokenLinesFrom [] rest
  | c :: rest =>
    if isLineEnd c then String.ofList line.reverse :: brokenLinesFrom [] rest
    else brokenLinesFrom (c :: line) rest

/-- The lines of a text, cut at every kind of line end. -/
def brokenLines (s : String) : List String := brokenLinesFrom [] s.toList

end SourceAudit.Text
