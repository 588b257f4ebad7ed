import SourceAudit.Text.Utf8
import SourceAudit.Yaml.Scalar

/-!
# YAML tokens

A token is an indicator, a scalar, or the beginning or end of a collection that indentation tells. This module also
reads the tokens that carry names: anchors, aliases, tags and directives.
-/
namespace SourceAudit.Yaml

/-- A tag as it is written: a handle, if there is one, and what follows it. -/
structure TagText where
  handle : Option String
  suffix : String
  deriving DecidableEq, Repr

inductive Directive where
  | version (major minor : Nat)
  | tag (handle pre : String)
  | other (name : String)
  deriving DecidableEq, Repr

inductive TokenKind where
  | directive (d : Directive)
  | documentStart
  | documentEnd
  | streamEnd
  | blockSequenceStart
  | blockMappingStart
  | blockEnd
  | flowSequenceStart
  | flowMappingStart
  | flowSequenceEnd
  | flowMappingEnd
  | blockEntry
  | flowEntry
  | key
  | value
  | reference (name : String)
  | anchor (name : String)
  | tag (t : TagText)
  | scalar (text : String) (isPlain : Bool)
  deriving DecidableEq, Repr

/-- A token as it is named in messages. -/
def TokenKind.id : TokenKind → String
  | directive _ => "<directive>"
  | documentStart => "<document start>"
  | documentEnd => "<document end>"
  | streamEnd => "<stream end>"
  | blockSequenceStart => "<block sequence start>"
  | blockMappingStart => "<block mapping start>"
  | blockEnd => "<block end>"
  | flowSequenceStart => "["
  | flowMappingStart => "\x7b"
  | flowSequenceEnd => "]"
  | flowMappingEnd => "\x7d"
  | blockEntry => "-"
  | flowEntry => ","
  | key => "?"
  | value => ":"
  | reference _ => "<alias>"
  | anchor _ => "<anchor>"
  | tag _ => "<tag>"
  | scalar .. => "<scalar>"

structure Token where
  kind : TokenKind
  mark : Mark
  deriving DecidableEq, Repr

/-- Whether a character can stand in a name. -/
def isNameChar (ch : Char) : Bool :=
  ('0' ≤ ch && ch ≤ '9') || ('A' ≤ ch && ch ≤ 'Z') || ('a' ≤ ch && ch ≤ 'z') || ch == '-' || ch == '_'

/-- Whether a blank, a line end or the end of the text is next. -/
def atLineGap (c : Cursor) : Bool := c.peek.all fun ch => ch == ' ' || isBreak ch

/-- The problem of finding something else than expected at a cursor. -/
def unexpected (context : Context) (start : Mark) (what : String) (c : Cursor) : Error :=
  .problem (some (context, start)) (.expected what ("but found " ++ shownChar c.peek)) c.mark

/-- The name of an anchor or an alias, from its indicator on. -/
def anchorName (context : Context) (c : Cursor) : Except Error (String × Cursor) :=
  let start := c.mark
  let (name, c) := c.step.span isNameChar
  if name.isEmpty || !c.peek.all fun ch => isSpace ch || "?:,]\x7d%@`".toList.contains ch then
    .error (unexpected context start "alphabetic or numeric character," c)
  else .ok (String.ofList name, c)

/-- The bytes of percent escapes. -/
def uriBytes (context : Context) (start : Mark) :
    (fuel : Nat) → List UInt8 → Cursor → Except Error (List UInt8 × Cursor)
  | 0, acc, c => .ok (acc, c)
  | fuel + 1, acc, c =>
    if c.sees '%' then
      let c := c.step
      match hexNumber 2 c.rest with
      | .error found =>
        .error (.problem (some (context, start))
          (.expected "URI escape sequence of 2 hexadecimal numbers," ("but found " ++ shownChar found)) c.mark)
      | .ok n => uriBytes context start fuel (acc ++ [n.toUInt8]) (c.steps 2)
    else .ok (acc, c)

/-- Whether a character can stand in the text of a tag. -/
def isUriChar (ch : Char) : Bool :=
  (isNameChar ch || ";/?:@&=+$,.!~*'()[]".toList.contains ch)

/-- The text of a tag behind its handle. -/
def uriFrom (context : Context) (start : Mark) : (fuel : Nat) → String → Cursor → Except Error (String × Cursor)
  | 0, acc, c => .ok (acc, c)
  | fuel + 1, acc, c =>
    let (piece, c) := c.span isUriChar
    let acc := acc ++ String.ofList piece
    if c.sees '%' then do
      let (bytes, after) ← uriBytes context start (c.rest.length + 1) [] c
      match Text.Utf8.decode? bytes with
      | some cs => uriFrom context start fuel (acc ++ String.ofList cs) after
      | none => .error (.problem (some (context, start)) .malformedEscape c.mark)
    else .ok (acc, c)

/-- The text of a tag or of a directive's handle. -/
def uri (scan parse : Context) (start : Mark) (c : Cursor) : Except Error (String × Cursor) := do
  let (text, after) ← uriFrom scan start (c.rest.length + 1) "" c
  if after.index = c.index then .error (unexpected parse start "URI," after)
  else return (text, after)

/-- The handle of a tag: an exclamation mark, or a name between two of them. -/
def tagHandle (context : Context) (start : Mark) (c : Cursor) : Except Error (String × Cursor) :=
  if !c.sees '!' then .error (unexpected context start "'!'," c)
  else
    let after := c.step
    if after.sees ' ' then .ok ("!", after)
    else
      let (name, after) := after.span isNameChar
      if after.sees '!' then .ok ("!" ++ String.ofList name ++ "!", after.step)
      else .error (unexpected context start "'!'," after)

/-- A tag, from its exclamation mark on. -/
def tagText (c : Cursor) : Except Error (TagText × Cursor) := do
  let start := c.mark
  let (tag, c) ← match c.second with
    | some '<' => do
      let (suffix, c) ← uri .scanTag .parseTag start (c.steps 2)
      if !c.sees '>' then throw (unexpected .parseTag start "'>'," c)
      pure (⟨none, suffix⟩, c.step)
    | next =>
      if Cursor.endsWord next then pure (⟨none, "!"⟩, c.step)
      else do
        let word := c.step.rest.takeWhile fun ch => !(ch == ' ' || isBreak ch)
        let (handle, c) ← if word.contains '!' then tagHandle .scanTag start c else pure ("!", c.step)
        let (suffix, c) ← uri .scanTag .parseTag start c
        pure (⟨some handle, suffix⟩, c)
  if atLineGap c then return (tag, c) else throw (unexpected .scanTag start "' '," c)

def versionNumber (start : Mark) (c : Cursor) : Except Error (Nat × Cursor) :=
  let (digits, after) := c.span Json.isDigit
  if digits.isEmpty then .error (unexpected .directive start "a digit," c)
  else .ok (Json.digitsValue digits, after)

/-- What a directive says, behind its name. -/
def directiveValue (start : Mark) (name : String) (c : Cursor) : Except Error (Directive × Cursor) :=
  if name = "YAML" then do
    let (major, c) ← versionNumber start (c.skip (· == ' '))
    if !c.sees '.' then throw (unexpected .directive start "a digit or '.'," c)
    let (minor, c) ← versionNumber start c.step
    if !atLineGap c then throw (unexpected .directive start "a digit or ' '," c)
    return (.version major minor, c)
  else if name = "TAG" then do
    let (handle, c) ← tagHandle .directive start (c.skip (· == ' '))
    if !c.sees ' ' then throw (unexpected .directive start "' '," c)
    let (pre, c) ← uri .directive .parseDirective start (c.skip (· == ' '))
    if !atLineGap c then throw (unexpected .directive start "' '," c)
    return (.tag handle pre, c)
  else .ok (.other name, c.skip (!isBreak ·))

/-- A directive, from its percent sign on, and the rest of its line. -/
def directive (c : Cursor) : Except Error (Directive × Cursor) := do
  let start := c.mark
  let (name, c) := c.step.span isNameChar
  if name.isEmpty || !atLineGap c then throw (unexpected .directive start "alphabetic or numeric character," c)
  let (d, c) ← directiveValue start (String.ofList name) c
  let c := c.skipComment
  if !c.peek.all isBreak then throw (unexpected .directive start "a comment or a line break," c)
  return (d, c.lineBreak.2)

end SourceAudit.Yaml
