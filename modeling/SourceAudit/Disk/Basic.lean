import SourceAudit.Association
import SourceAudit.Path
import SourceAudit.Text.Quoted

/-!
# Disks

A disk is a tree of files, directories and symbolic links, together with the directory that relative paths start
from. A *place* is a list of names from the root; it is taken as it is, without following links.
-/
namespace SourceAudit

/-- A file, a directory or a symbolic link. The entries of a directory are in no particular order. -/
inductive Node where
  | file (bytes : List UInt8)
  /-- A file that may not be read or written. -/
  | locked (size : Nat)
  | dir (entries : List (String × Node))
  | link (target : String)
  deriving Inhabited, Repr

/-- Names from the root of a disk. -/
abbrev Place := List String

/-- A tree of files and the current directory. -/
structure Disk where
  root : Node := .dir []
  current : Place := []
  deriving Inhabited, Repr

namespace Node

/-- What stands at a place below a node. -/
def get? : Node → Place → Option Node
  | node, [] => some node
  | .dir entries, name :: rest =>
    match entries.lookup name with
    | some node => node.get? rest
    | none => none
  | _, _ :: _ => none

/-- Puts a node at a place. Directories that are missing on the way are made. -/
def put (new : Node) : Place → Node → Node
  | [], _ => new
  | name :: rest, .dir entries =>
    .dir (Association.set name (put new rest ((entries.lookup name).getD (.dir []))) entries)
  | _ :: _, node => node

/-- Takes away what stands at a place. -/
def erase : Place → Node → Node
  | [name], .dir entries => .dir (entries.filter (·.1 != name))
  | name :: rest, .dir entries =>
    match entries.lookup name with
    | some node => .dir (Association.set name (erase rest node) entries)
    | none => .dir entries
  | _, node => node

def isDir : Node → Bool
  | .dir _ => true
  | _ => false

def isFile : Node → Bool
  | .file _ | .locked _ => true
  | _ => false

end Node

/-- Why an operation on a disk fails. -/
inductive DiskFault where
  | notFound
  | notPermitted
  | occupied
  | notDirectory
  | isDirectory
  | tooManyLinks
  deriving DecidableEq, Repr

/-- The number and the wording of a fault. -/
def DiskFault.text : DiskFault → String
  | .notFound => "[Errno 2] No such file or directory"
  | .notPermitted => "[Errno 13] Permission denied"
  | .occupied => "[Errno 17] File exists"
  | .notDirectory => "[Errno 20] Not a directory"
  | .isDirectory => "[Errno 21] Is a directory"
  | .tooManyLinks => "[Errno 40] Too many levels of symbolic links"

structure DiskError where
  fault : DiskFault
  path : Path
  deriving DecidableEq, Repr

def DiskError.message (e : DiskError) : String := e.fault.text ++ ": " ++ Text.quoted e.path.toString

end SourceAudit
