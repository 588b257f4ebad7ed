import SourceAudit.Yaml.Scan
import SourceAudit.Yaml.Tag

/-!
# YAML nodes

The tree that tokens describe: scalars, sequences and mappings, each with a tag. An alias stands for the node of
its anchor; anchors belong to one document and may not be given twice. `Node.ofText` reads a text that holds at most
one document.
-/
namespace SourceAudit.Yaml

inductive Node where
  | scalar (tag : Tag) (text : String) (mark : Mark)
  | sequence (tag : Tag) (items : List Node) (mark : Mark)
  | mapping (tag : Tag) (entries : List (Node × Node)) (mark : Mark)

namespace Node

def mark : Node → Mark
  | scalar _ _ m => m
  | sequence _ _ m => m
  | mapping _ _ m => m

def tag : Node → Tag
  | scalar t _ _ => t
  | sequence t _ _ => t
  | mapping t _ _ => t

def kindName : Node → String
  | scalar .. => "scalar"
  | sequence .. => "sequence"
  | mapping .. => "mapping"

def empty (mark : Mark) : Node := .scalar .null "" mark

end Node

/-- An anchor: where its node begins, and the node once it is complete. -/
structure Anchor where
  mark : Mark
  node : Option Node

/-- The tokens that are left, the error behind them, and what the document has defined. -/
structure Feed where
  tokens : List Token
  failure : Option Error
  anchors : List (String × Anchor) := []
  handles : List (String × String) := []

/-- The handles that every document has. -/
def defaultHandles : List (String × String) := [("!", "!"), ("!!", Tag.standard)]

namespace Feed

def peek (f : Feed) : Except Error Token :=
  match f.tokens, f.failure with
  | t :: _, _ => .ok t
  | [], some e => .error e
  | [], none => .ok ⟨.streamEnd, default⟩

/-- The feed past the next token. -/
def next (f : Feed) : Feed := { f with tokens := f.tokens.tail }

def sees (f : Feed) (kinds : List TokenKind) : Except Error Bool := return kinds.contains (← f.peek).kind

/-- The error of finding something else than expected. -/
def unexpected (f : Feed) (context : Context) (start : Mark) (what but : String) : Except Error Error := do
  let t ← f.peek
  return .problem (some (context, some start)) (.expected what (but ++ " " ++ Text.quoted t.kind.id)) t.mark

/-- Notes an anchor whose node begins. -/
def openAnchor (f : Feed) (anchor : Option String) (mark : Mark) : Except Error Feed :=
  match anchor with
  | none => .ok f
  | some name =>
    match f.anchors.lookup name with
    | some first => .error (.problem (some (.firstAnchor name, some first.mark)) .secondAnchor mark)
    | none => .ok { f with anchors := (name, ⟨mark, none⟩) :: f.anchors }

def closeAnchor (f : Feed) (anchor : Option String) (node : Node) : Feed :=
  match anchor with
  | none => f
  | some name => { f with anchors := (name, ⟨node.mark, some node⟩) :: f.anchors }

def aliased (f : Feed) (name : String) (mark : Mark) : Except Error Node :=
  match (f.anchors.lookup name).bind (·.node) with
  | some node => .ok node
  | none => .error (.problem none (.undefinedAlias name) mark)

end Feed

/-- What stands in front of a node. -/
structure Properties where
  anchor : Option String := none
  tag : Option TagText := none
  tagMark : Mark := default
  start : Option Mark := none

/-- Reads an anchor and a tag, in either order. -/
def properties : (fuel : Nat) → Properties → Feed → Except Error (Properties × Feed)
  | 0, p, f => .ok (p, f)
  | fuel + 1, p, f => do
    let t ← f.peek
    match t.kind, p.anchor, p.tag with
    | .anchor name, none, _ => properties fuel { p with anchor := some name, start := p.start <|> some t.mark } f.next
    | .tag text, _, none =>
      properties fuel { p with tag := some text, tagMark := t.mark, start := p.start <|> some t.mark } f.next
    | _, _, _ => return (p, f)

/-- The name of a tag, with its handle replaced. -/
def tagName (f : Feed) (p : Properties) : Except Error (Option String) :=
  match p.tag with
  | none => .ok none
  | some ⟨none, suffix⟩ => .ok (some suffix)
  | some ⟨some handle, suffix⟩ =>
    match f.handles.lookup handle with
    | some pre => .ok (some (pre ++ suffix))
    | none => .error (.problem (some (.node, p.start)) (.undefinedHandle handle) p.tagMark)

/-- The tag of a collection: its own, unless it has none. -/
def collectionTag (tag : Option String) (default : Tag) : Tag :=
  match tag with
  | none => default
  | some name => if name = "!" then default else .ofName name

/-- The tag of a scalar: its own, or one that its text gives if it is plain. -/
def scalarTag (tag : Option String) (text : String) (isPlain : Bool) : Tag :=
  match tag with
  | none => if isPlain then implicitTag text else .str
  | some name => if name = "!" then implicitTag text else .ofName name

mutual
/-- Reads a node. Only in a block may it be a block collection, and only as a key or value a sequence that is not
indented. -/
def readNode (block indentless : Bool) : (fuel : Nat) → Feed → Except Error (Node × Feed)
  | 0, f => return (.empty (← f.peek).mark, f)
  | fuel + 1, f => do
    let t ← f.peek
    match t.kind with
    | .reference name => return (← f.aliased name t.mark, f.next)
    | _ =>
      let (p, f) ← properties 2 {} f
      let tag ← tagName f p
      let t ← f.peek
      let start := p.start.getD t.mark
      let opened ← f.openAnchor p.anchor start
      let close (node : Node) (f : Feed) : Node × Feed := (node, f.closeAnchor p.anchor node)
      match t.kind with
      | .scalar text isPlain => return close (.scalar (scalarTag tag text isPlain) text start) opened.next
      | .flowSequenceStart =>
        let (items, f) ← readFlowItems t.mark true [] fuel opened.next
        return close (.sequence (collectionTag tag .seq) items start) f
      | .flowMappingStart =>
        let (entries, f) ← readFlowEntries t.mark true [] fuel opened.next
        return close (.mapping (collectionTag tag .map) entries start) f
      | kind =>
        if indentless && kind = .blockEntry then
          let (items, f) ← readIndentlessItems [] fuel opened
          return close (.sequence (collectionTag tag .seq) items start) f
        else if block && kind = .blockSequenceStart then
          let (items, f) ← readBlockItems t.mark [] fuel opened.next
          return close (.sequence (collectionTag tag .seq) items start) f
        else if block && kind = .blockMappingStart then
          let (entries, f) ← readBlockEntries t.mark [] fuel opened.next
          return close (.mapping (collectionTag tag .map) entries start) f
        else if p.anchor.isSome || tag.isSome then
          return close (.scalar (scalarTag tag "" true) "" start) opened
        else
          throw (← f.unexpected (if block then .blockNode else .flowNode) start "the node content," "but found")

/-- Reads a node of a block, or nothing in front of some tokens. -/
def readPart (block indentless : Bool) (ends : List TokenKind) : (fuel : Nat) → Feed → Except Error (Node × Feed)
  | 0, f => return (.empty (← f.peek).mark, f)
  | fuel + 1, f => do
    if ← f.sees ends then return (.empty (← f.peek).mark, f) else readNode block indentless fuel f

/-- Reads the items of a block sequence; `acc` holds the earlier ones, last first. -/
def readBlockItems (start : Mark) (acc : List Node) : (fuel : Nat) → Feed → Except Error (List Node × Feed)
  | 0, f => .ok (acc.reverse, f)
  | fuel + 1, f => do
    match (← f.peek).kind with
    | .blockEntry =>
      let (node, f) ← readPart true false [.blockEntry, .blockEnd] fuel f.next
      readBlockItems start (node :: acc) fuel f
    | .blockEnd => return (acc.reverse, f.next)
    | _ => throw (← f.unexpected .blockCollection start "<block end>," "but found")

/-- Reads the items of a sequence that is not indented. -/
def readIndentlessItems (acc : List Node) : (fuel : Nat) → Feed → Except Error (List Node × Feed)
  | 0, f => .ok (acc.reverse, f)
  | fuel + 1, f => do
    match (← f.peek).kind with
    | .blockEntry =>
      let (node, f) ← readPart true false [.blockEntry, .key, .value, .blockEnd] fuel f.next
      readIndentlessItems (node :: acc) fuel f
    | _ => return (acc.reverse, f)

def readBlockEntries (start : Mark) (acc : List (Node × Node)) :
    (fuel : Nat) → Feed → Except Error (List (Node × Node) × Feed)
  | 0, f => .ok (acc.reverse, f)
  | fuel + 1, f => do
    match (← f.peek).kind with
    | .key =>
      let (key, f) ← readPart true true [.key, .value, .blockEnd] fuel f.next
      let (value, f) ← readValue true true [.key, .value, .blockEnd] fuel f
      readBlockEntries start ((key, value) :: acc) fuel f
    | .blockEnd => return (acc.reverse, f.next)
    | _ => throw (← f.unexpected .blockMapping start "<block end>," "but found")

/-- Reads a colon and the value behind it, or nothing. -/
def readValue (block indentless : Bool) (ends : List TokenKind) : (fuel : Nat) → Feed → Except Error (Node × Feed)
  | 0, f => return (.empty (← f.peek).mark, f)
  | fuel + 1, f => do
    if (← f.peek).kind = .value then readPart block indentless ends fuel f.next
    else return (.empty (← f.peek).mark, f)

/-- Reads the items of a sequence in brackets. A key in it is a mapping of one entry. -/
def readFlowItems (start : Mark) (first : Bool) (acc : List Node) :
    (fuel : Nat) → Feed → Except Error (List Node × Feed)
  | 0, f => .ok (acc.reverse, f)
  | fuel + 1, f => do
    if (← f.peek).kind = .flowSequenceEnd then return (acc.reverse, f.next)
    if !first && (← f.peek).kind ≠ .flowEntry then
      throw (← f.unexpected .flowSequence start "',' or ']'," "but got")
    let f := if first then f else f.next
    let t ← f.peek
    match t.kind with
    | .flowSequenceEnd => return (acc.reverse, f.next)
    | .key =>
      let (key, f) ← readPart false false [.value, .flowEntry, .flowSequenceEnd] fuel f.next
      let (value, f) ← readValue false false [.flowEntry, .flowSequenceEnd] fuel f
      readFlowItems start false (.mapping .map [(key, value)] t.mark :: acc) fuel f
    | _ =>
      let (node, f) ← readNode false false fuel f
      readFlowItems start false (node :: acc) fuel f

/-- Reads the entries of a mapping in braces. -/
def readFlowEntries (start : Mark) (first : Bool) (acc : List (Node × Node)) :
    (fuel : Nat) → Feed → Except Error (List (Node × Node) × Feed)
  | 0, f => .ok (acc.reverse, f)
  | fuel + 1, f => do
    if (← f.peek).kind = .flowMappingEnd then return (acc.reverse, f.next)
    if !first && (← f.peek).kind ≠ .flowEntry then
      throw (← f.unexpected .flowMapping start "',' or '\x7d'," "but got")
    let f := if first then f else f.next
    match (← f.peek).kind with
    | .flowMappingEnd => return (acc.reverse, f.next)
    | .key =>
      let (key, f) ← readPart false false [.value, .flowEntry, .flowMappingEnd] fuel f.next
      let (value, f) ← readValue false false [.flowEntry, .flowMappingEnd] fuel f
      readFlowEntries start false ((key, value) :: acc) fuel f
    | _ =>
      let (key, f) ← readNode false false fuel f
      readFlowEntries start false ((key, Node.empty (← f.peek).mark) :: acc) fuel f
end

/-! ## Documents -/

/-- Adds what a directive defines. -/
def applyDirective (hasVersion : Bool) (f : Feed) (d : Directive) (mark : Mark) : Except Error (Bool × Feed) :=
  match d with
  | .version major _ =>
    if hasVersion then .error (.problem none .duplicateVersion mark)
    else if major ≠ 1 then .error (.problem none .incompatibleVersion mark)
    else .ok (true, f)
  | .tag handle pre =>
    if (f.handles.lookup handle).isSome then .error (.problem none (.duplicateHandle handle) mark)
    else .ok (hasVersion, { f with handles := (handle, pre) :: f.handles })
  | .other _ => .ok (hasVersion, f)

def readDirectives (hasVersion : Bool) : (fuel : Nat) → Feed → Except Error Feed
  | 0, f => .ok f
  | fuel + 1, f => do
    let t ← f.peek
    match t.kind with
    | .directive d =>
      let (hasVersion, f) ← applyDirective hasVersion f d t.mark
      readDirectives hasVersion fuel f.next
    | _ => return f

/-- Passes over document ends. -/
def skipDocumentEnds (f : Feed) : Feed := { f with tokens := f.tokens.dropWhile (·.kind = .documentEnd) }

/-- Reads the directives and the beginning of a document that has one. -/
def readDocumentStart (f : Feed) : Except Error Feed := do
  let f ← readDirectives false (f.tokens.length + 1) { f with handles := [], anchors := [] }
  let t ← f.peek
  if t.kind ≠ .documentStart then
    throw (.problem none (.expected "'<document start>'," ("but found " ++ Text.quoted t.kind.id)) t.mark)
  return { f.next with handles := f.handles ++ defaultHandles }

/-- Whether the next token stands outside the content of any document. -/
def atDocumentEdge (f : Feed) : Except Error Bool := do
  return match (← f.peek).kind with
    | .directive _ | .documentStart | .documentEnd | .streamEnd => true
    | _ => false

/-- The depth to which nodes are read: more than there are tokens. -/
def Feed.fuel (f : Feed) : Nat := 3 * f.tokens.length + 8

/-- Reads the first document of a stream, if there is one. -/
def readFirst (f : Feed) : Except Error (Option Node × Feed) := do
  match (← f.peek).kind with
  | .streamEnd => return (none, f)
  | .directive _ | .documentStart =>
    let f ← readDocumentStart f
    if ← atDocumentEdge f then return (some (.empty (← f.peek).mark), f)
    let (node, f) ← readNode true false f.fuel f
    return (some node, f)
  | _ =>
    let (node, f) ← readNode true false f.fuel { f with handles := defaultHandles }
    return (some node, f)

/-- Reads the only document of a text; none if the text holds no document. -/
def Node.ofText (text : List Char) : Except Error (Option Node) := do
  let (tokens, failure) := scan text
  let (node, f) ← readFirst { tokens, failure }
  match node with
  | none => return none
  | some node =>
    discard f.peek
    let f := skipDocumentEnds f
    let t ← f.peek
    if t.kind = .streamEnd then return some node
    else
      discard (readDocumentStart f)
      throw (.problem (some (.singleDocument, some node.mark)) .anotherDocument t.mark)

end SourceAudit.Yaml
