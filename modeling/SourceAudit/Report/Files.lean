import SourceAudit.Disk.Change
import SourceAudit.Report.Page
import SourceAudit.Text.Utf8

/-!
# Report files

A report is written below the tree as a web page and as JSON.
-/
namespace SourceAudit.Report

def bytesOf (s : String) : List UInt8 := Text.Utf8.encode s.toList

structure Files where
  page : Path
  document : Path
  deriving DecidableEq, Repr

def filesIn (root : Path) (directory : String) : Files :=
  let output := root.join (.ofString directory)
  ⟨output.child "report.html", output.child "report.json"⟩

/-- Writes a report into a directory below a path: the disk afterwards, and where the files are. -/
def write (r : Report) (d : Disk) (root : Path) (directory : String) : Disk × Except DiskError Files :=
  let files := filesIn root directory
  match d.ensureDirs (root.join (.ofString directory)) with
  | (d, some e) => (d, .error e)
  | (d, none) =>
    match d.store files.page (bytesOf r.page) with
    | .error e => (d, .error e)
    | .ok d =>
      match d.store files.document (bytesOf r.document) with
      | .error e => (d, .error e)
      | .ok d => (d, .ok files)

end SourceAudit.Report
