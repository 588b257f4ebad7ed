import SourceAudit.Disk.Lookup
import SourceAudit.FileFilter
import SourceAudit.Sorting

/-!
# The files of a tree

Files are listed directory by directory: first the files of a directory by name, then what its subdirectories
hold, by their names. Directories with an ignored name are passed over. A link to a file counts as a file; a link
to a directory is neither listed nor entered, nor is a link that leads nowhere.
-/
namespace SourceAudit

/-- Names of directories that are never entered. -/
def defaultIgnoredDirs : List String :=
  ["node_modules", "lib", "vendor", "dist", "build", ".venv", "venv", "env", "__pycache__", ".git"]

/-- What an entry adds to the listing of its directory. -/
inductive Item where
  | file
  /-- A directory, with the listing of what it holds. -/
  | directory (paths : List (List String))
  | other
  deriving DecidableEq, Repr

namespace Item

/-- The names of the files among some items. -/
def files (items : List (String × Item)) : List (List String) :=
  items.filterMap fun (name, item) => match item with
    | .file => some [name]
    | _ => none

/-- What the directories among some items hold. -/
def nested (items : List (String × Item)) : List (List String) :=
  items.flatMap fun (name, item) => match item with
    | .directory paths => paths.map (name :: ·)
    | _ => []

/-- The listing of a directory: its files, then what its subdirectories hold. -/
def arrange (items : List (String × Item)) : List (List String) :=
  let sorted := sortBy (·.1) items
  files sorted ++ nested sorted

end Item

mutual
/-- What a node under a name adds to the listing of the directory at a place. `linksToFile` tells whether the link
at a place leads to a file; places are counted from the root of the tree on. -/
def Node.item (ignored : List String) (linksToFile : Place → Bool) (place : Place) (name : String) : Node → Item
  | .file _ | .locked _ => .file
  | .link _ => if linksToFile (place ++ [name]) then .file else .other
  | .dir entries =>
    if ignored.contains name then .other
    else .directory (Item.arrange (Node.items ignored linksToFile (place ++ [name]) entries))

def Node.entryItem (ignored : List String) (linksToFile : Place → Bool) (place : Place) :
    String × Node → String × Item
  | (name, node) => (name, node.item ignored linksToFile place name)

def Node.items (ignored : List String) (linksToFile : Place → Bool) (place : Place) :
    List (String × Node) → List (String × Item)
  | [] => []
  | entry :: rest => Node.entryItem ignored linksToFile place entry :: Node.items ignored linksToFile place rest
end

/-- The files below a node at a place, as names from the node on. -/
def Node.listing (ignored : List String) (linksToFile : Place → Bool) (place : Place) : Node → List (List String)
  | .dir entries => Item.arrange (Node.items ignored linksToFile place entries)
  | _ => []

namespace Disk

/-- The files of the tree at a path, as names from there on. -/
def listing (d : Disk) (ignored : List String) (root : Path) : List (List String) :=
  match d.locate true root with
  | .ok (.taken _ node) => node.listing ignored (fun names => d.isFile ⟨root.root, root.names ++ names⟩) []
  | _ => []

/-- A file of a tree: its path, and its path from the root of the tree on. -/
structure Candidate where
  path : Path
  relative : String
  deriving DecidableEq, Repr

/-- The files of the tree at a path that a filter selects. -/
def candidates (d : Disk) (ignored : List String) (root : Path) (filter : FileFilter) : List Candidate :=
  ((d.listing ignored root).map fun names =>
    ⟨{ root with names := root.names ++ names }, "/".intercalate names⟩).filter fun c => filter.selects c.relative

/-- The names of the languages of the tree at a path, ascending. -/
def languageNames (d : Disk) (ignored : List String) (root : Path) : List String :=
  Language.namesOf ((d.candidates ignored root { extensions := Language.extensions.map (·.1) }).map (·.path))

end Disk
end SourceAudit
