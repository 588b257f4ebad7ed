import SourceAudit.Yaml.Token

/-!
# From text to tokens

Outside brackets, indentation tells where collections begin and end. A key is known only from the colon behind it:
for each level of brackets the scanner keeps the place where a key may have begun, and puts the tokens for the key
in there when it comes to the colon. A key of this kind must be on one line and at most 1024 characters long.

`scan` gives all tokens up to the first error.
-/
namespace SourceAudit.Yaml

/-- Where a key may have begun. -/
structure PossibleKey where
  /-- How many tokens precede it. -/
  tokens : Nat
  /-- Whether there must be a key here. -/
  required : Bool
  index : Nat
  mark : Mark
  deriving Repr

structure Scanner where
  cursor : Cursor
  /-- The tokens so far, last first, and their number. -/
  tokens : List Token := []
  count : Nat := 0
  /-- The indentation of the innermost block collection, -1 outside any, and those around it. -/
  indent : Int := -1
  indents : List Int := []
  /-- The number of open brackets. -/
  flow : Nat := 0
  /-- Whether a key may begin here. -/
  keyAllowed : Bool := true
  /-- The possible key of each level of brackets. -/
  keys : List (Nat × PossibleKey) := []

namespace Scanner

/-- Whether the scanner is inside brackets. -/
def inFlow (s : Scanner) : Bool := s.flow > 0

def mark (s : Scanner) : Mark := s.cursor.mark

def column (s : Scanner) : Int := s.cursor.column

/-- Adds a token that begins at a place. -/
def push (s : Scanner) (kind : TokenKind) (mark : Mark) : Scanner :=
  { s with tokens := ⟨kind, mark⟩ :: s.tokens, count := s.count + 1 }

/-- Puts a token behind the first `n` ones. -/
def insertAt (s : Scanner) (n : Nat) (kind : TokenKind) (mark : Mark) : Scanner :=
  let later := s.tokens.take (s.count - n)
  { s with tokens := later ++ ⟨kind, mark⟩ :: s.tokens.drop (s.count - n), count := s.count + 1 }

def moveTo (s : Scanner) (c : Cursor) : Scanner := { s with cursor := c }

def fail {α : Type} (s : Scanner) (context : Option (Context × Option Mark)) (what : Problem) : Except Error α :=
  .error (.problem context what s.mark)

/-- Passes over blanks, comments and line ends. Behind a line end outside brackets a key may begin. -/
def skipToToken : (fuel : Nat) → Scanner → Scanner
  | 0, s => s
  | fuel + 1, s =>
    let c := s.cursor.skipComment
    if c.peek.any isBreak then
      skipToToken fuel { s with cursor := c.lineBreak.2, keyAllowed := s.keyAllowed || !s.inFlow }
    else { s with cursor := c }

/-- Gives up possible keys that are too far away. -/
def dropStaleKeys (s : Scanner) : Except Error Scanner := do
  let isStale (k : PossibleKey) : Bool := k.mark.line != s.cursor.line || s.cursor.index - k.index > 1024
  match s.keys.find? fun (_, k) => isStale k && k.required with
  | some (_, k) => s.fail (some (.simpleKey, some k.mark)) .noColon
  | none => return { s with keys := s.keys.filter fun (_, k) => !isStale k }

/-- Gives up the possible key of the current level. -/
def dropKey (s : Scanner) : Except Error Scanner :=
  match s.keys.lookup s.flow with
  | none => .ok s
  | some k =>
    if k.required then s.fail (some (.simpleKey, some k.mark)) .noColon
    else .ok { s with keys := s.keys.filter (·.1 != s.flow) }

/-- Notes that a key may begin here. -/
def noteKey (s : Scanner) : Except Error Scanner :=
  if s.keyAllowed then do
    let required := !s.inFlow && s.indent = s.column
    let s ← s.dropKey
    return { s with keys := (s.flow, ⟨s.count, required, s.cursor.index, s.mark⟩) :: s.keys }
  else .ok s

/-- Ends the block collections that are indented more than a column. -/
def unwind (column : Int) : (indents : List Int) → Scanner → Scanner
  | [], s => s
  | outer :: rest, s =>
    if !s.inFlow && s.indent > column then
      unwind column rest ({ s with indent := outer, indents := rest }.push .blockEnd s.mark)
    else s

/-- Ends the block collections that are indented more than a column. -/
def unwindTo (s : Scanner) (column : Int) : Scanner := unwind column s.indents s

/-- Begins a block collection at a column, if it is indented more than the current one. -/
def beginBlock (s : Scanner) (column : Int) : Option Scanner :=
  if s.indent < column then some { s with indents := s.indent :: s.indents, indent := column } else none

/-- Adds a token of some characters' length. -/
def take (s : Scanner) (length : Nat) (kind : TokenKind) : Scanner :=
  (s.push kind s.mark).moveTo (s.cursor.steps length)

def documentMarker (s : Scanner) (kind : TokenKind) : Except Error Scanner := do
  let s ← (s.unwindTo (-1)).dropKey
  return { s with keyAllowed := false }.take 3 kind

def openBracket (s : Scanner) (kind : TokenKind) : Except Error Scanner := do
  let s ← s.noteKey
  return { s with flow := s.flow + 1, keyAllowed := true }.take 1 kind

def closeBracket (s : Scanner) (kind : TokenKind) : Except Error Scanner := do
  let s ← s.dropKey
  return { s with flow := s.flow - 1, keyAllowed := false }.take 1 kind

/-- A comma inside brackets. -/
def flowComma (s : Scanner) : Except Error Scanner := do
  let s ← s.dropKey
  return { s with keyAllowed := true }.take 1 .flowEntry

/-- An indicator that may begin a block collection. -/
def blockIndicator (s : Scanner) (collection indicator : TokenKind) (refused : Problem) (keyAllowed : Bool) :
    Except Error Scanner := do
  if !s.inFlow && !s.keyAllowed then s.fail none refused
  else
    let s := if s.inFlow then s else ((s.beginBlock s.column).map (·.push collection s.mark)).getD s
    let s ← s.dropKey
    return { s with keyAllowed }.take 1 indicator

/-- A colon. If a key may have begun on this level, it did. -/
def colon (s : Scanner) : Except Error Scanner :=
  match s.keys.lookup s.flow with
  | some k =>
    let s := { s with keys := s.keys.filter (·.1 != s.flow), keyAllowed := false }.insertAt k.tokens .key k.mark
    let s := if s.inFlow then s
      else ((s.beginBlock k.mark.column).map (·.insertAt k.tokens .blockMappingStart k.mark)).getD s
    .ok (s.take 1 .value)
  | none => s.blockIndicator .blockMappingStart .value .mappingValueNotAllowed !s.inFlow

/-- A token that may be a key and after which none may begin. -/
def keyLike (s : Scanner) (read : Cursor → Except Error (TokenKind × Cursor)) : Except Error Scanner := do
  let s ← s.noteKey
  let (kind, c) ← read s.cursor
  return ({ s with keyAllowed := false }.push kind s.mark).moveTo c

/-- A plain scalar, behind which a key may begin if it ended with its line. -/
def plain (s : Scanner) : Except Error Scanner := do
  let s ← s.noteKey
  let (text, hasBreak, c) := plainScalar s.inFlow (s.indent + 1) s.cursor
  return ({ s with keyAllowed := hasBreak }.push (.scalar text true) s.mark).moveTo c

def block (s : Scanner) (fold : Bool) : Except Error Scanner := do
  let s ← { s with keyAllowed := true }.dropKey
  let (text, c) ← blockScalar fold s.indent s.cursor
  return (s.push (.scalar text false) s.mark).moveTo c

/-- Whether a plain scalar can begin with a character, given what follows it. -/
def startsPlain (flow : Bool) (ch : Char) (next : Option Char) : Bool :=
  !(isSpace ch || "-?:,[]\x7b\x7d#&*!|>'\"%@`".toList.contains ch) ||
    (!Cursor.endsWord next && (ch == '-' || (!flow && (ch == '?' || ch == ':'))))

/-- The token that begins with the next character. -/
def token (s : Scanner) (ch : Char) : Except Error Scanner :=
  let next := s.cursor.second
  let atStart := s.cursor.column = 0
  if ch == '%' && atStart then do
    let s ← (s.unwindTo (-1)).dropKey
    let (d, c) ← directive s.cursor
    return ({ s with keyAllowed := false }.push (.directive d) s.mark).moveTo c
  else if atStart && s.cursor.atSeparator then s.documentMarker (if ch == '-' then .documentStart else .documentEnd)
  else if ch == '[' then s.openBracket .flowSequenceStart
  else if ch == '{' then s.openBracket .flowMappingStart
  else if ch == ']' then s.closeBracket .flowSequenceEnd
  else if ch == '}' then s.closeBracket .flowMappingEnd
  else if ch == ',' then s.flowComma
  else if ch == '-' && Cursor.endsWord next then
    s.blockIndicator .blockSequenceStart .blockEntry .sequenceEntryNotAllowed true
  else if ch == '?' && (s.inFlow || Cursor.endsWord next) then
    s.blockIndicator .blockMappingStart .key .mappingKeyNotAllowed !s.inFlow
  else if ch == ':' && (s.inFlow || Cursor.endsWord next) then s.colon
  else if ch == '*' then
    s.keyLike fun c => do
      let (name, c) ← anchorName .reference c
      return (.reference name, c)
  else if ch == '&' then
    s.keyLike fun c => do
      let (name, c) ← anchorName .anchor c
      return (.anchor name, c)
  else if ch == '!' then
    s.keyLike fun c => do
      let (tag, c) ← tagText c
      return (.tag tag, c)
  else if ch == '|' && !s.inFlow then s.block false
  else if ch == '>' && !s.inFlow then s.block true
  else if ch == '\'' || ch == '"' then
    s.keyLike fun c => do
      let (text, c) ← quotedScalar (ch == '"') c
      return (.scalar text false, c)
  else if startsPlain s.inFlow ch next then s.plain
  else s.fail (some (.nextToken, none)) (.noTokenStart ch)

/-- Ends everything that is open at the end of the text. -/
def finish (s : Scanner) : Except Error Scanner := do
  let s ← (s.unwindTo (-1)).dropKey
  return s.push .streamEnd s.mark

/-- Reads tokens up to the end of the text or the first error. -/
def run : (fuel : Nat) → Scanner → Scanner × Option Error
  | 0, s => (s, none)
  | fuel + 1, s =>
    match (skipToToken (s.cursor.rest.length + 1) s).dropStaleKeys with
    | .error e => (s, some e)
    | .ok s =>
      let s := s.unwindTo s.column
      match s.cursor.peek with
      | none =>
        match s.finish with
        | .ok s => (s, none)
        | .error e => (s, some e)
      | some ch =>
        match s.token ch with
        | .ok s => run fuel s
        | .error e => (s, some e)

end Scanner

/-- The tokens of a text, and the error that ends them if there is one. -/
def scan (text : List Char) : List Token × Option Error :=
  let start : Cursor := { rest := text }
  let start := if start.sees byteOrderMark then start.step else start
  let (s, e) := Scanner.run (text.length + 2) { cursor := start }
  (s.tokens.reverse, e)

end SourceAudit.Yaml
