import SourceAudit.Disk.Lookup

/-!
# Changing a disk

Each operation gives the disk as it is afterwards. Making a directory with its parents may fail after some of
them have been made; the disk then holds those.
-/
namespace SourceAudit.Disk

def put (d : Disk) (place : Place) (node : Node) : Disk := { d with root := node.put place d.root }

/-- Takes away what stands at a place. -/
def erase (d : Disk) (place : Place) : Disk := { d with root := Node.erase place d.root }

/-- Makes a directory whose parent exists. -/
def makeDir (d : Disk) (p : Path) : Except DiskError Disk :=
  match d.locate false p with
  | .ok (.free place name) => .ok (d.put (place ++ [name]) (.dir []))
  | .ok (.taken ..) => .error ⟨.occupied, p⟩
  | .error fault => .error ⟨fault, p⟩

/-- Makes a directory whose parent exists, unless it is there. -/
def ensureDir (d : Disk) (p : Path) : Except DiskError Disk :=
  match d.makeDir p with
  | .ok d => .ok d
  | .error e => if e.fault ≠ .notFound ∧ d.isDir p then .ok d else .error e

/-- Makes a directory and the directories above it that are missing, for names given last first. -/
def ensureDirsFrom (root : String) : List String → Disk → Disk × Option DiskError
  | [], d =>
    match d.ensureDir ⟨root, []⟩ with
    | .ok d => (d, none)
    | .error e => (d, some e)
  | name :: above, d =>
    let p : Path := ⟨root, (name :: above).reverse⟩
    match d.ensureDir p with
    | .ok d => (d, none)
    | .error e =>
      if e.fault ≠ .notFound then (d, some e)
      else
        match ensureDirsFrom root above d with
        | (d, some e) => (d, some e)
        | (d, none) =>
          match d.ensureDir p with
          | .ok d => (d, none)
          | .error e => (d, some e)

/-- Makes a directory and the directories above it that are missing. -/
def ensureDirs (d : Disk) (p : Path) : Disk × Option DiskError := ensureDirsFrom p.root p.names.reverse d

/-- Writes a file, which may be there already. Links are followed. -/
def store (d : Disk) (p : Path) (bytes : List UInt8) : Except DiskError Disk :=
  match d.locate true p with
  | .ok (.free place name) => .ok (d.put (place ++ [name]) (.file bytes))
  | .ok (.taken place (.file _)) => .ok (d.put place (.file bytes))
  | .ok (.taken _ (.locked _)) => .error ⟨.notPermitted, p⟩
  | .ok (.taken ..) => .error ⟨.isDirectory, p⟩
  | .error fault => .error ⟨fault, p⟩

/-- Makes a symbolic link. -/
def makeLink (d : Disk) (p : Path) (target : String) : Except DiskError Disk :=
  match d.locate false p with
  | .ok (.free place name) => .ok (d.put (place ++ [name]) (.link target))
  | .ok (.taken ..) => .error ⟨.occupied, p⟩
  | .error fault => .error ⟨fault, p⟩

/-- Takes away a file or a link. -/
def remove (d : Disk) (p : Path) : Except DiskError Disk :=
  match d.locate false p with
  | .ok (.taken _ (.dir _)) => .error ⟨.isDirectory, p⟩
  | .ok (.taken place _) => .ok (d.erase place)
  | .ok (.free ..) => .error ⟨.notFound, p⟩
  | .error fault => .error ⟨fault, p⟩

end SourceAudit.Disk
