import SourceAudit.Disk.Basic

/-!
# Finding what a path means

A path is followed name by name. A double dot goes to the directory that contains the one reached, and a symbolic
link is replaced by its target; at most forty links are followed. A target with a slash or a dot at its end asks for a
directory.

`Disk.resolve` gives the absolute path without links that a path means. It also answers for paths of which the
last names do not exist. A link that leads back to itself is refused, and so are names that no file can have.
-/
namespace SourceAudit

/-- Where a path leads: to a node, or to a name that is free in a directory. -/
inductive Spot where
  | taken (place : Place) (node : Node)
  | free (directory : Place) (name : String)
  deriving Repr

namespace Disk

def start (d : Disk) (p : Path) : Place := if p.isAbsolute then [] else d.current

/-- Follows names from a place; `expand` goes on with a link's target and the names behind it. -/
def followNames (d : Disk) (followLast : Bool) (expand : Place → String → List String → Except DiskFault Spot) :
    Place → List String → Except DiskFault Spot
  | place, [] =>
    match d.root.get? place with
    | some node => .ok (.taken place node)
    | none => .error .notFound
  | place, name :: rest =>
    match d.root.get? place with
    | some (.dir entries) =>
      if name = ".." then d.followNames followLast expand place.dropLast rest
      else
        match entries.lookup name with
        | none => if rest.isEmpty then .ok (.free place name) else .error .notFound
        | some (.link target) =>
          if rest.isEmpty && !followLast then .ok (.taken (place ++ [name]) (.link target))
          else expand place target rest
        | some _ => d.followNames followLast expand (place ++ [name]) rest
    | some _ => .error .notDirectory
    | none => .error .notFound

/-- How the text of a link ends. -/
inductive Ending where
  | name
  | slash
  | dot
  deriving DecidableEq, Repr

def endingOf (target : String) : Ending :=
  let parts := (Path.splitSlashes target.toList).reverse
  match parts.dropWhile (·.isEmpty) with
  | ['.'] :: _ => .dot
  | _ => if parts.head? = some [] then .slash else .name

/-- Where a link leads whose text ends in some way. -/
def Ending.accept : Ending → Spot → Except DiskFault Spot
  | .name, spot => .ok spot
  | _, .taken place (.dir entries) => .ok (.taken place (.dir entries))
  | .slash, _ => .error .isDirectory
  | .dot, .taken .. => .error .notDirectory
  | .dot, .free .. => .error .notFound

def linkStart (place : Place) (target : String) : Place := if (Path.ofString target).isAbsolute then [] else place

/-- Follows a link's target and the names behind it, with `links` more links allowed. -/
def followLink (d : Disk) (followLast : Bool) : (links : Nat) → Place → String → List String → Except DiskFault Spot
  | 0, _, _, _ => .error .tooManyLinks
  | links + 1, place, target, rest => do
    let spot ← d.followNames followLast (d.followLink followLast links) (linkStart place target)
      ((Path.ofString target).names ++ rest)
    if rest.isEmpty then (endingOf target).accept spot else return spot

/-- The number of links that are followed in one path. -/
def maxLinks : Nat := 40

/-- Where a path leads. A link at its end is followed, or taken as it is. -/
def locate (d : Disk) (followLast : Bool) (p : Path) : Except DiskFault Spot :=
  d.followNames followLast (d.followLink followLast maxLinks) (d.start p) p.names

def find? (d : Disk) (p : Path) : Option Node :=
  match d.locate true p with
  | .ok (.taken _ node) => some node
  | _ => none

/-- Whether a path leads to something. -/
def has (d : Disk) (p : Path) : Bool := (d.find? p).isSome

def isFile (d : Disk) (p : Path) : Bool := (d.find? p).any (·.isFile)

/-- Whether a path leads to a directory. -/
def isDir (d : Disk) (p : Path) : Bool := (d.find? p).any (·.isDir)

/-! ## Resolving -/

/-- Why a path cannot be resolved. -/
inductive ResolveFault where
  | linkLoop (path : Path)
  | nestedTooDeep
  | nullByte
  /-- A name holds surrogates that stand for no bytes. -/
  | notEncodable (path : Path)
  deriving DecidableEq, Repr

/-- The wording of names that hold surrogates: the first that stands for no byte, and those right behind it. -/
def surrogatesText (path : Path) : String :=
  let text := path.names.flatMap fun name => .char '/' :: Path.codePointsOf name.toList
  let first := text.findIdx (!·.isEncodable)
  match (text.drop first).takeWhile (·.isSurrogate) with
  | [.surrogate unit] => "character '\\u" ++ Text.hex 4 unit ++ "' in position " ++ toString first
  | run => "characters in position " ++ toString first ++ "-" ++ toString (first + run.length - 1)

def ResolveFault.message : ResolveFault → String
  | .linkLoop path => "Symlink loop from " ++ Text.quoted path.toString
  | .nestedTooDeep => "maximum recursion depth exceeded"
  | .nullByte => "embedded null byte"
  | .notEncodable path => "'utf-8' codec can't encode " ++ surrogatesText path ++ ": surrogates not allowed"

/-- What is wrong with the names of a path themselves. -/
def nameFault? (p : Path) : Option ResolveFault :=
  if p.names.any fun name => (Path.codePointsOf name.toList).any (!·.isEncodable) then some (.notEncodable p)
  else if p.names.any (·.toList.contains (Char.ofNat 0)) then some .nullByte
  else none

inductive Stop where
  /-- A link leads back to itself: what was reached, with all further names behind it. -/
  | loop (reached : Path)
  | fault (fault : ResolveFault)
  deriving DecidableEq, Repr

/-- What was reached, with what follows a link that leads back to itself. If that begins at a root, it stands alone. -/
def Stop.behind (root : String) (rest : List (String × String)) : Stop → Stop
  | .loop reached => .loop (reached.join ⟨root, rest.map (·.1)⟩)
  | .fault why => .fault why

/-- Replaces links from a place on; `enter` resolves a link's target. A link among the `pending` ones, whose own
targets are being resolved, ends the search. -/
def resolveNames (d : Disk) (pending : List Place) (enter : Place → List Place → String → Except Stop Place) :
    Place → List (String × String) → Except Stop Place
  | place, [] => .ok place
  | place, (name, root) :: rest =>
    if name = ".." then d.resolveNames pending enter place.dropLast rest
    else
      let next := place ++ [name]
      match nameFault? ⟨"/", next⟩ with
      | some fault => .error (.fault fault)
      | none =>
        match d.root.get? next with
        | some (.link target) =>
          if next ∈ pending then .error (Stop.behind root rest (.loop ⟨"/", next⟩))
          else
            match enter place (next :: pending) target with
            | .ok place => d.resolveNames pending enter place rest
            | .error stop => .error (stop.behind root rest)
        | _ => d.resolveNames pending enter next rest

/-- Resolves a link's target, with links nested at most `depth` deep in it. -/
def resolveLink (d : Disk) : (depth : Nat) → Place → List Place → String → Except Stop Place
  | 0, _, _, _ => .error (.fault .nestedTooDeep)
  | depth + 1, place, pending, target =>
    d.resolveNames pending (d.resolveLink depth) (linkStart place target)
      (Path.steps (Path.splitSlashes target.toList))

/-- The deepest nesting of links that is resolved. -/
def maxLinkDepth : Nat := 900

/-- Names with double dots carried out, without regard to links. -/
def foldDots (names : List String) : List String :=
  names.foldl (fun place name => if name = ".." then place.dropLast else place ++ [name]) []

/-- A path with its links replaced, as far as they do not lead back to themselves. -/
def unlinked (d : Disk) (p : Path) : Except ResolveFault Path :=
  match d.resolveNames [] (d.resolveLink maxLinkDepth) (d.start p) (p.names.map fun name => (name, "")) with
  | .ok place => .ok ⟨"/", place⟩
  | .error (.loop reached) => .ok ⟨reached.root, foldDots reached.names⟩
  | .error (.fault fault) => .error fault

/-- The absolute path without links that a path means. -/
def resolve (d : Disk) (p : Path) : Except ResolveFault Path := do
  let resolved ← d.unlinked p
  match nameFault? resolved, d.locate true resolved with
  | some fault, _ => throw fault
  | none, .error .tooManyLinks => throw (.linkLoop resolved)
  | none, _ => return resolved

end Disk
end SourceAudit
