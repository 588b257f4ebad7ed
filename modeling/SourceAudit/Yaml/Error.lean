import SourceAudit.Text.Quoted

/-!
# What is wrong with a YAML text

An error says what was being read, where that began, what is wrong and where. A text with characters that may not
occur in YAML at all is refused at the first of them.
-/
namespace SourceAudit.Yaml

/-- A place in a text; line and column count from zero. -/
structure Mark where
  line : Nat
  column : Nat
  deriving DecidableEq, Repr, Inhabited

/-- What was being read. -/
inductive Context where
  | simpleKey
  | nextToken
  | directive
  | reference
  | anchor
  | scanTag
  | parseTag
  | parseDirective
  | blockScalar
  | doubleQuoted
  | quoted
  | node
  | blockNode
  | flowNode
  | blockCollection
  | blockMapping
  | flowSequence
  | flowMapping
  | firstAnchor (name : String)
  | singleDocument
  | mapping
  | orderedMap
  | pairs
  deriving DecidableEq, Repr

def Context.text : Context → String
  | simpleKey => "while scanning a simple key"
  | nextToken => "while scanning for the next token"
  | directive => "while scanning a directive"
  | reference => "while scanning an alias"
  | anchor => "while scanning an anchor"
  | scanTag => "while scanning a tag"
  | parseTag => "while parsing a tag"
  | parseDirective => "while parsing a directive"
  | blockScalar => "while scanning a block scalar"
  | doubleQuoted => "while scanning a double-quoted scalar"
  | quoted => "while scanning a quoted scalar"
  | node => "while parsing a node"
  | blockNode => "while parsing a block node"
  | flowNode => "while parsing a flow node"
  | blockCollection => "while parsing a block collection"
  | blockMapping => "while parsing a block mapping"
  | flowSequence => "while parsing a flow sequence"
  | flowMapping => "while parsing a flow mapping"
  | firstAnchor name => "found duplicate anchor " ++ Text.quoted name ++ "; first occurrence"
  | singleDocument => "expected a single document in the stream"
  | mapping => "while constructing a mapping"
  | orderedMap => "while constructing an ordered map"
  | pairs => "while constructing pairs"

inductive Problem where
  /-- Something else was expected than what was found. -/
  | expected (what found : String)
  | noColon
  | noTokenStart (c : Char)
  | sequenceEntryNotAllowed
  | mappingKeyNotAllowed
  | mappingValueNotAllowed
  | zeroIndentation
  | unknownEscape (c : Char)
  | unexpectedEnd
  | unexpectedSeparator
  | malformedEscape
  | duplicateVersion
  | incompatibleVersion
  | duplicateHandle (handle : String)
  | undefinedHandle (handle : String)
  | undefinedAlias (name : String)
  | secondAnchor
  | anotherDocument
  | unhashableKey
  | undefinedTag (tag : String)
  deriving DecidableEq, Repr

/-- A character as it is shown; the end of the text is shown as the character zero. -/
def shownChar (c : Option Char) : String := Text.quoted (String.singleton (c.getD (Char.ofNat 0)))

def Problem.text : Problem → String
  | expected what found => "expected " ++ what ++ " " ++ found
  | noColon => "could not find expected ':'"
  | noTokenStart c => "found character " ++ shownChar c ++ " that cannot start any token"
  | sequenceEntryNotAllowed => "sequence entries are not allowed here"
  | mappingKeyNotAllowed => "mapping keys are not allowed here"
  | mappingValueNotAllowed => "mapping values are not allowed here"
  | zeroIndentation => "expected indentation indicator in the range 1-9, but found 0"
  | unknownEscape c => "found unknown escape character " ++ shownChar c
  | unexpectedEnd => "found unexpected end of stream"
  | unexpectedSeparator => "found unexpected document separator"
  | malformedEscape => "malformed escape sequence"
  | duplicateVersion => "found duplicate YAML directive"
  | incompatibleVersion => "found incompatible YAML document (version 1.* is required)"
  | duplicateHandle handle => "duplicate tag handle " ++ Text.quoted handle
  | undefinedHandle handle => "found undefined tag handle " ++ Text.quoted handle
  | undefinedAlias name => "found undefined alias " ++ Text.quoted name
  | secondAnchor => "second occurrence"
  | anotherDocument => "but found another document"
  | unhashableKey => "found unhashable key"
  | undefinedTag tag => "could not determine a constructor for the tag " ++ Text.quoted tag

/-- Why a text gives no value. -/
inductive Error where
  /-- A character that may not occur, and its offset. -/
  | character (c : Char) (offset : Nat)
  /-- A problem at a place, with what was being read and where that began. -/
  | problem (context : Option (Context × Option Mark)) (what : Problem) (mark : Mark)
  /-- A scalar has not the form that its tag asks for; the wording says why. -/
  | value (message : String)
  /-- A scalar tagged as a truth value is none. -/
  | noBool (text : String)
  /-- A scalar tagged as a number is empty. -/
  | emptyNumber
  /-- A scalar tagged as a moment is none. -/
  | noMoment
  deriving DecidableEq, Repr

/-- A place as it is shown. -/
def Mark.text (file : String) (m : Mark) : String :=
  "  in \"" ++ file ++ "\", line " ++ toString (m.line + 1) ++ ", column " ++ toString (m.column + 1)

def Error.lines (file : String) : Error → List String
  | .character c offset => [
      "unacceptable character #x" ++ Text.hex 4 c.toNat ++ ": special characters are not allowed",
      "  in \"" ++ file ++ "\", position " ++ toString offset]
  | .problem context what mark =>
    (match context with
      | none => []
      | some (c, none) => [c.text]
      | some (c, some m) => if m = mark then [c.text] else [c.text, m.text file]) ++ [what.text, mark.text file]
  | .value message => [message]
  | .noBool text => [Text.quoted text]
  | .emptyNumber => ["string index out of range"]
  | .noMoment => ["'NoneType' object has no attribute 'groupdict'"]

def Error.message (file : String) (e : Error) : String := "\n".intercalate (e.lines file)

end SourceAudit.Yaml
