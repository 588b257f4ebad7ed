import SourceAudit.CommandLine.Session
import SourceAudit.Yaml.File

/-!
# The program

Reads the tree and the configuration that the command line names, runs the command line on them, prints what it
prints and writes the files of the report. No process is started here: the linter counts as not installed.
-/
namespace SourceAudit.Program

/-- Reads a file. Of one that may not be read only the size is known. -/
def readNode (entry : IO.FS.DirEntry) : IO Node := do
  match ← (IO.FS.readBinFile entry.path).toBaseIO with
  | .ok bytes => return .file bytes.toList
  | .error _ => return .locked (← entry.path.metadata).byteSize.toNat

/-- Reads a directory entry. A link counts as the file it leads to; one that leads elsewhere is kept as a link. -/
partial def readEntry (entry : IO.FS.DirEntry) : IO Node := do
  match (← entry.path.symlinkMetadata).type with
  | .dir =>
    let entries ← (← entry.path.readDir).toList.mapM fun e => return (e.fileName, ← readEntry e)
    return .dir entries
  | .file => readNode entry
  | _ =>
    match ← entry.path.metadata.toBaseIO with
    | .ok ⟨_, _, _, .file, _⟩ => readNode entry
    | _ => return .link ""

/-- Adds what stands at a path to a disk, if anything does. -/
def readPath (d : Disk) (text : String) : IO Disk := do
  let entry : IO.FS.DirEntry := ⟨← IO.currentDir, text⟩
  let p := Path.ofString text
  let place := Disk.foldDots (d.start p ++ p.names)
  if ← entry.path.isDir then
    let entries ← (← entry.path.readDir).toList.mapM fun e => return (e.fileName, ← readEntry e)
    return d.put place (.dir entries)
  else if ← entry.path.pathExists then return d.put place (← readNode entry)
  else return d

/-- The disk that a command line looks at. -/
def readDisk (words : List String) : IO Disk := do
  let current := (Path.ofString (← IO.currentDir).toString).names
  let d : Disk := { root := Node.put (.dir []) current (.dir []), current }
  match CommandLine.parse words with
  | .error _ => return d
  | .ok o =>
    let d ← readPath d o.path
    match o.config with
    | some s => if d.has (.ofString s) then return d else readPath d s
    | none => return d

/-- The world of a run: no program can be started and no page be opened. -/
def world : CommandLine.World where
  processes := fun _ _ => .notFound
  readConfig := Yaml.reader
  opensPages := false

/-- Writes a file of a disk to the same path outside. -/
def exportFile (d : Disk) (p : Path) : IO Unit := do
  match d.find? p with
  | some (.file bytes) =>
    IO.FS.createDirAll p.parent.toString
    IO.FS.writeBinFile p.toString (ByteArray.mk bytes.toArray)
  | _ => return

end SourceAudit.Program

/-- Runs a command line. -/
def main (words : List String) : IO UInt32 := do
  let d ← SourceAudit.Program.readDisk words
  let s := SourceAudit.CommandLine.run SourceAudit.Program.world d words
  IO.print s.stdout
  IO.eprint s.stderr
  match s.written with
  | none => pure ()
  | some files =>
    SourceAudit.Program.exportFile s.disk files.page
    SourceAudit.Program.exportFile s.disk files.document
  return UInt32.ofNat s.exit
