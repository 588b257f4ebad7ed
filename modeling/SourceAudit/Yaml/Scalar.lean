import SourceAudit.Json.Reader
import SourceAudit.Yaml.Cursor

/-!
# Scalars in YAML texts

The text of a scalar, in each of the ways to write one: plain, between quotes, or as a block of lines. Where lines
are folded, a single line end becomes a blank and further ones stay.
-/
namespace SourceAudit.Yaml

/-- What stands for a line end and the empty lines behind it when lines are folded. -/
def folded (lineEnd breaks : List Char) : List Char :=
  if lineEnd ≠ ['\n'] then lineEnd ++ breaks
  else if breaks.isEmpty then [' ']
  else breaks

/-! ## Plain scalars -/

/-- Whether a plain scalar ends in front of a character, given what follows it. -/
def endsPlain (flow : Bool) (ch : Char) (next : Option Char) : Bool :=
  isSpace ch ||
    (ch == ':' && (Cursor.endsWord next || (flow && next.any (",[]\x7b\x7d".toList.contains ·)))) ||
    (flow && ",?[]\x7b\x7d".toList.contains ch)

/-- The number of characters up to where a plain scalar pauses or ends. -/
def plainLength (flow : Bool) : List Char → Nat
  | [] => 0
  | ch :: rest => if endsPlain flow ch rest.head? then 0 else plainLength flow rest + 1

/-- Empty lines and indentation behind a line end; none if they lead to a document separator. -/
def plainBreaks : (fuel : Nat) → List Char → Cursor → Option (List Char) × Cursor
  | 0, acc, c => (some acc, c)
  | fuel + 1, acc, c =>
    match c.peek with
    | none => (some acc, c)
    | some ch =>
      if ch == ' ' then plainBreaks fuel acc c.step
      else if isBreak ch then
        let (lineEnd, c) := c.lineBreak
        if c.atSeparator then (none, c) else plainBreaks fuel (acc ++ lineEnd) c
      else (some acc, c)

/-- What stands between two pieces of a plain scalar. -/
structure Gap where
  /-- What the gap is read as; none in front of a document separator. -/
  text : Option (List Char)
  hasBreak : Bool
  after : Cursor

/-- The gap behind a piece of a plain scalar. -/
def plainGap (c : Cursor) : Gap :=
  let (blanks, c) := c.span (· == ' ')
  if c.peek.any isBreak then
    let (lineEnd, c) := c.lineBreak
    if c.atSeparator then ⟨none, true, c⟩
    else
      let (breaks, c) := plainBreaks (c.rest.length + 1) [] c
      ⟨breaks.map (folded lineEnd), true, c⟩
  else ⟨some blanks, false, c⟩

/-- The text of a plain scalar, whether a line end was passed behind its last piece, and the cursor past it. -/
def plainFrom (flow : Bool) (indent : Int) :
    (fuel : Nat) → (acc gap : List Char) → (hasBreak : Bool) → Cursor → List Char × Bool × Cursor
  | 0, acc, _, hasBreak, c => (acc, hasBreak, c)
  | fuel + 1, acc, gap, hasBreak, c =>
    let length := if c.sees '#' then 0 else plainLength flow c.rest
    if length = 0 then (acc, hasBreak, c)
    else
      let acc := acc ++ gap ++ c.rest.take length
      let next := plainGap (c.steps length)
      match next.text with
      | none => (acc, next.hasBreak, next.after)
      | some gap =>
        if gap.isEmpty || next.after.sees '#' || (!flow && (next.after.column : Int) < indent) then
          (acc, next.hasBreak, next.after)
        else plainFrom flow indent fuel acc gap next.hasBreak next.after

def plainScalar (flow : Bool) (indent : Int) (c : Cursor) : String × Bool × Cursor :=
  let (text, hasBreak, c) := plainFrom flow indent (c.rest.length + 1) [] [] false c
  (String.ofList text, hasBreak, c)

/-! ## Quoted scalars -/

/-- Empty lines inside quotes, up to the next text. -/
def quotedBreaks (start : Mark) : (fuel : Nat) → List Char → Cursor → Except Error (List Char × Cursor)
  | 0, acc, c => .ok (acc, c)
  | fuel + 1, acc, c =>
    if c.atSeparator then .error (.problem (some (.quoted, start)) .unexpectedSeparator c.mark)
    else
      let c := c.skip fun ch => ch == ' ' || ch == '\t'
      if c.peek.any isBreak then
        let (lineEnd, c) := c.lineBreak
        quotedBreaks start fuel (acc ++ lineEnd) c
      else .ok (acc, c)

/-- Blanks and line ends inside quotes. -/
def quotedSpaces (start : Mark) (c : Cursor) : Except Error (List Char × Cursor) :=
  let (blanks, c) := c.span fun ch => ch == ' ' || ch == '\t'
  match c.peek with
  | none => .error (.problem (some (.quoted, start)) .unexpectedEnd c.mark)
  | some ch =>
    if isBreak ch then do
      let (lineEnd, c) := c.lineBreak
      let (breaks, c) ← quotedBreaks start (c.rest.length + 1) [] c
      return (folded lineEnd breaks, c)
    else .ok (blanks, c)

/-- The character that a letter behind a backslash stands for. -/
def escapeOf? (ch : Char) : Option Char :=
  match ch with
  | '0' => some (Char.ofNat 0x00)
  | 'a' => some (Char.ofNat 0x07)
  | 'b' => some (Char.ofNat 0x08)
  | 't' => some '\t'
  | '\t' => some '\t'
  | 'n' => some '\n'
  | 'v' => some (Char.ofNat 0x0B)
  | 'f' => some (Char.ofNat 0x0C)
  | 'r' => some '\r'
  | 'e' => some (Char.ofNat 0x1B)
  | ' ' => some ' '
  | '"' => some '"'
  | '\\' => some '\\'
  | '/' => some '/'
  | 'N' => some (Char.ofNat 0x85)
  | '_' => some (Char.ofNat 0xA0)
  | 'L' => some (Char.ofNat 0x2028)
  | 'P' => some (Char.ofNat 0x2029)
  | _ => none

/-- The number of hexadecimal digits that a letter behind a backslash asks for. -/
def escapeDigits? (ch : Char) : Option Nat :=
  match ch with
  | 'x' => some 2
  | 'u' => some 4
  | 'U' => some 8
  | _ => none

/-- The value of some hexadecimal digits, or the first character that is none. -/
def hexNumber : Nat → List Char → Except (Option Char) Nat
  | 0, _ => .ok 0
  | _ + 1, [] => .error none
  | n + 1, ch :: rest =>
    match Json.hexValue? ch with
    | none => .error (some ch)
    | some d =>
      match hexNumber n rest with
      | .ok v => .ok (d * Nat.pow 16 n + v)
      | .error e => .error e

/-- What an escape stands for, from behind the backslash on. -/
def escape (start : Mark) (c : Cursor) : Except Error (List Char × Cursor) :=
  match c.peek with
  | none => .error (.problem (some (.doubleQuoted, start)) (.unknownEscape (Char.ofNat 0)) c.mark)
  | some ch =>
    match escapeOf? ch, escapeDigits? ch with
    | some e, _ => .ok ([e], c.step)
    | none, some n =>
      let c := c.step
      match hexNumber n c.rest with
      | .error found =>
        .error (.problem (some (.doubleQuoted, start))
          (.expected ("escape sequence of " ++ toString n ++ " hexadecimal numbers,") ("but found " ++ shownChar found))
          c.mark)
      | .ok code =>
        if code ≥ 0x110000 then .error (.value "chr() arg not in range(0x110000)")
        else .ok ([(CodePoint.ofUnit code).shown], c.steps n)
    | none, none =>
      if isBreak ch then quotedBreaks start (c.rest.length + 1) [] c.lineBreak.2
      else .error (.problem (some (.doubleQuoted, start)) (.unknownEscape ch) c.mark)

/-- The text up to the closing quote, and the cursor past it. -/
def quotedFrom (double : Bool) (start : Mark) :
    (fuel : Nat) → (acc : String) → Cursor → Except Error (String × Cursor)
  | 0, acc, c => .ok (acc, c)
  | fuel + 1, acc, c =>
    match c.peek with
    | none => .error (.problem (some (.quoted, start)) .unexpectedEnd c.mark)
    | some ch =>
      if isSpace ch then do
        let (space, c) ← quotedSpaces start c
        quotedFrom double start fuel (acc ++ String.ofList space) c
      else if double then
        if ch == '"' then .ok (acc, c.step)
        else if ch == '\\' then do
          let (text, c) ← escape start c.step
          quotedFrom double start fuel (acc ++ String.ofList text) c
        else quotedFrom double start fuel (acc.push ch) c.step
      else if ch == '\'' then
        if c.second == some '\'' then quotedFrom double start fuel (acc.push '\'') (c.steps 2)
        else .ok (acc, c.step)
      else quotedFrom double start fuel (acc.push ch) c.step

/-- A quoted scalar, from its opening quote on. -/
def quotedScalar (double : Bool) (c : Cursor) : Except Error (String × Cursor) :=
  quotedFrom double c.mark (c.rest.length + 1) "" c.step

/-! ## Block scalars -/

/-- What becomes of the line ends behind the last line of a block scalar. -/
inductive Chomping where
  | clip
  | keep
  | strip
  deriving DecidableEq, Repr

def chompingOf? (ch : Option Char) : Option Chomping :=
  match ch with
  | some '+' => some .keep
  | some '-' => some .strip
  | _ => none

/-- An indentation indicator, if one is next. -/
def indentIndicator (start : Mark) (c : Cursor) : Except Error (Option Nat × Cursor) :=
  match c.peek with
  | some ch =>
    if '0' ≤ ch ∧ ch ≤ '9' then
      if ch = '0' then .error (.problem (some (.blockScalar, start)) .zeroIndentation c.mark)
      else .ok (some (ch.toNat - '0'.toNat), c.step)
    else .ok (none, c)
  | none => .ok (none, c)

/-- The indicators of a block scalar, in either order. -/
def blockIndicators (start : Mark) (c : Cursor) : Except Error (Chomping × Option Nat × Cursor) := do
  let (chomping, increment, c) ← match chompingOf? c.peek with
    | some chomping => do
      let (increment, c) ← indentIndicator start c.step
      pure (chomping, increment, c)
    | none => do
      let (increment, c) ← indentIndicator start c
      match increment, chompingOf? c.peek with
      | some n, some chomping => pure (chomping, some n, c.step)
      | increment, _ => pure (.clip, increment, c)
  if c.peek.all fun ch => ch == ' ' || isBreak ch then return (chomping, increment, c)
  else
    .error (.problem (some (.blockScalar, start))
      (.expected "chomping or indentation indicators," ("but found " ++ shownChar c.peek)) c.mark)

/-- Empty lines in front of a block scalar whose indentation is yet to be found: the line ends, the greatest
indentation among them, and the cursor past them. -/
def leadingBreaks : (fuel : Nat) → (acc : List Char) → (indent : Nat) → Cursor → List Char × Nat × Cursor
  | 0, acc, indent, c => (acc, indent, c)
  | fuel + 1, acc, indent, c =>
    match c.peek with
    | none => (acc, indent, c)
    | some ch =>
      if ch == ' ' then
        let c := c.step
        leadingBreaks fuel acc (max indent c.column) c
      else if isBreak ch then
        let (lineEnd, c) := c.lineBreak
        leadingBreaks fuel (acc ++ lineEnd) indent c
      else (acc, indent, c)

/-- Passes over blanks up to an indentation. -/
def skipIndent (indent : Nat) : (fuel : Nat) → Cursor → Cursor
  | 0, c => c
  | fuel + 1, c => if c.column < indent && c.sees ' ' then skipIndent indent fuel c.step else c

/-- Empty lines inside a block scalar of a known indentation. -/
def blockBreaks (indent : Nat) : (fuel : Nat) → (acc : List Char) → Cursor → List Char × Cursor
  | 0, acc, c => (acc, c)
  | fuel + 1, acc, c =>
    let c := skipIndent indent indent c
    if c.peek.any isBreak then
      let (lineEnd, c) := c.lineBreak
      blockBreaks indent fuel (acc ++ lineEnd) c
    else (acc, c)

/-- Whether a line of a block scalar begins with a blank, which keeps it from being folded. -/
def isIndented (c : Cursor) : Bool := c.sees ' ' || c.sees '\t'

/-- The lines of a block scalar: its text up to the last line, the line end and the empty lines behind it. -/
def blockLines (fold : Bool) (indent : Nat) :
    (fuel : Nat) → (acc lineEnd breaks : List Char) → Cursor → List Char × List Char × List Char × Cursor
  | 0, acc, lineEnd, breaks, c => (acc, lineEnd, breaks, c)
  | fuel + 1, acc, lineEnd, breaks, c =>
    if c.column = indent ∧ c.peek.isSome then
      let indented := isIndented c
      let (line, c) := c.span (!isBreak ·)
      let acc := acc ++ breaks ++ line
      let (lineEnd, c) := c.lineBreak
      let (breaks, c) := blockBreaks indent (c.rest.length + 1) [] c
      if c.column = indent ∧ c.peek.isSome then
        let between := if fold && lineEnd = ['\n'] && !indented && !isIndented c then
            (if breaks.isEmpty then [' '] else [])
          else lineEnd
        blockLines fold indent fuel (acc ++ between) lineEnd breaks c
      else (acc, lineEnd, breaks, c)
    else (acc, lineEnd, breaks, c)

/-- A block scalar, from its indicator on, inside an indentation. -/
def blockScalar (fold : Bool) (outer : Int) (c : Cursor) : Except Error (String × Cursor) := do
  let start := c.mark
  let (chomping, increment, c) ← blockIndicators start c.step
  let c := c.skipComment
  if !c.peek.all isBreak then
    throw (.problem (some (.blockScalar, start))
      (.expected "a comment or a line break," ("but found " ++ shownChar c.peek)) c.mark)
  let c := c.lineBreak.2
  let least := max 1 (outer + 1).toNat
  let (indent, breaks, c) := match increment with
    | none =>
      let (breaks, indent, c) := leadingBreaks (c.rest.length + 1) [] 0 c
      (max least indent, breaks, c)
    | some n =>
      let indent := least + n - 1
      let (breaks, c) := blockBreaks indent (c.rest.length + 1) [] c
      (indent, breaks, c)
  let (text, lineEnd, breaks, c) := blockLines fold indent (c.rest.length + 1) [] [] breaks c
  let tail := match chomping with
    | .clip => lineEnd
    | .keep => lineEnd ++ breaks
    | .strip => []
  return (String.ofList (text ++ tail), c)

end SourceAudit.Yaml
