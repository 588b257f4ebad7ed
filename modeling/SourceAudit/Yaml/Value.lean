import SourceAudit.Yaml.Node
import SourceAudit.Yaml.ScalarValue

/-!
# From YAML to data

`Yaml.read` gives the value that a text describes. Of two entries with one key the later counts, in the place of the
earlier. The entries of mappings that are merged in come first, so that a mapping's own entries replace them.
-/
namespace SourceAudit.Yaml

def addEntries (table entries : List (Datum × Datum)) : List (Datum × Datum) :=
  entries.foldl (fun table (k, v) => Datum.setEntry k v table) table

def wrongKind (context : Option Context) (start : Mark) (what : String) (node : Node) : Error :=
  .problem (context.map (·, some start)) (.expected what ("but found " ++ node.kindName)) node.mark

def onlyPair (context : Context) (start mark : Mark) : List (Datum × Datum) → Except Error Datum
  | [(k, v)] => .ok (.pair k v)
  | entries =>
    .error (.problem (some (context, some start))
      (.expected "a single mapping item," ("but found " ++ toString entries.length ++ " items")) mark)

mutual
def valueOf : Node → Except Error Datum
  | .scalar tag text mark => scalarValue tag text mark
  | .sequence tag items mark =>
    match tag with
    | .seq => return .list (← valuesOf items)
    | .omap => return .list (← pairsOf .orderedMap mark items)
    | .pairs => return .list (← pairsOf .pairs mark items)
    | .set | .map => .error (.problem none (.expected "a mapping node," "but found sequence") mark)
    | .merge | .value | .other _ => .error (.problem none (.undefinedTag tag.name) mark)
    | _ => .error (.problem none (.expected "a scalar node," "but found sequence") mark)
  | .mapping tag entries mark =>
    match tag with
    | .map => do
      let (merged, own) ← entriesOf mark entries
      return .table (addEntries [] (merged ++ own))
    | .set => do
      let (merged, own) ← entriesOf mark entries
      return .set ((addEntries [] (merged ++ own)).map (·.1))
    | .seq => .error (.problem none (.expected "a sequence node," "but found mapping") mark)
    | .omap => .error (.problem (some (.orderedMap, some mark)) (.expected "a sequence," "but found mapping") mark)
    | .pairs => .error (.problem (some (.pairs, some mark)) (.expected "a sequence," "but found mapping") mark)
    | .merge | .value | .other _ => .error (.problem none (.undefinedTag tag.name) mark)
    | _ => .error (.problem none (.expected "a scalar node," "but found mapping") mark)

def valuesOf : List Node → Except Error (List Datum)
  | [] => .ok []
  | node :: rest => return (← valueOf node) :: (← valuesOf rest)

def pairsOf (context : Context) (start : Mark) : List Node → Except Error (List Datum)
  | [] => .ok []
  | .mapping _ entries mark :: rest => do
    let (merged, own) ← entriesOf mark entries
    return (← onlyPair context start mark (merged ++ own)) :: (← pairsOf context start rest)
  | node :: _ => .error (wrongKind context start "a mapping of length 1," node)

/-- The entries of a mapping: those merged in, and its own. -/
def entriesOf (start : Mark) : List (Node × Node) → Except Error (List (Datum × Datum) × List (Datum × Datum))
  | [] => .ok ([], [])
  | (key, value) :: rest =>
    if key.tag = .merge then do
      let first ← mergedOf start value
      let (merged, own) ← entriesOf start rest
      return (first ++ merged, own)
    else do
      let k ← match key with
        | .scalar .value text _ => .ok (.text text)
        | key => valueOf key
      if !k.isKey then throw (.problem (some (.mapping, some start)) .unhashableKey key.mark)
      let v ← valueOf value
      let (merged, own) ← entriesOf start rest
      return (merged, (k, v) :: own)

/-- The entries that a merge key brings in. -/
def mergedOf (start : Mark) : Node → Except Error (List (Datum × Datum))
  | .mapping _ entries mark => do
    let (merged, own) ← entriesOf mark entries
    return merged ++ own
  | .sequence _ items _ => mergedAll start items
  | node => .error (wrongKind (some .mapping) start "a mapping or list of mappings for merging," node)

/-- The entries that a list of mappings brings in: those of the first replace those of the others. -/
def mergedAll (start : Mark) : List Node → Except Error (List (Datum × Datum))
  | [] => .ok []
  | .mapping _ entries mark :: rest => do
    let (merged, own) ← entriesOf mark entries
    return (← mergedAll start rest) ++ (merged ++ own)
  | node :: _ => .error (wrongKind (some .mapping) start "a mapping for merging," node)
end

/-- The first character of a text that may not occur, and its offset. -/
def firstRefused (offset : Nat) : List Char → Option (Char × Nat)
  | [] => none
  | ch :: rest => if isAllowed ch then firstRefused (offset + 1) rest else some (ch, offset)

/-- The value that a text describes; null if it holds no document. -/
def read (text : List Char) : Except Error Datum :=
  match firstRefused 0 text with
  | some (ch, offset) => .error (.character ch offset)
  | none => do
    match ← Node.ofText text with
    | none => return .null
    | some node => valueOf node

end SourceAudit.Yaml
