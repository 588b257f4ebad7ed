import SourceAudit.Disk.Lookup
import SourceAudit.Log
import SourceAudit.Text.Utf8

/-!
# Source files as text

A file is looked at if it is not too large and holds no zero byte. Bytes that are no UTF-8 are replaced rather than
refused.
-/
namespace SourceAudit

/-- The size of the largest file that is looked at, in bytes. -/
def maxFileSize : Nat := 1000000

/-- What reading a file gives: its text, or the reason why it is passed over. -/
inductive SourceText where
  | text (cs : List Char)
  | tooLarge
  | binary
  | unreadable (error : DiskError)
  deriving DecidableEq, Repr

namespace SourceText

def ofBytes (bytes : List UInt8) : SourceText :=
  if bytes.length > maxFileSize then .tooLarge
  else if bytes.contains 0 then .binary
  else .text (Text.Utf8.decodeLossy bytes)

def ofNode (p : Path) : Node → SourceText
  | .file bytes => ofBytes bytes
  | .locked size => if size > maxFileSize then .tooLarge else .unreadable ⟨.notPermitted, p⟩
  | .dir _ => .unreadable ⟨.isDirectory, p⟩
  | .link _ => .unreadable ⟨.notFound, p⟩

def read (d : Disk) (p : Path) : SourceText :=
  match d.locate true p with
  | .ok (.taken _ node) => ofNode p node
  | .ok (.free ..) => .unreadable ⟨.notFound, p⟩
  | .error fault => .unreadable ⟨fault, p⟩

def text? : SourceText → Option (List Char)
  | .text cs => some cs
  | _ => none

/-- What is logged about a file that is passed over. -/
def log (p : Path) : SourceText → List LogLine
  | .text _ => []
  | .tooLarge =>
    [⟨.warning, .files, "Skipping " ++ p.toString ++ ": larger than " ++ toString maxFileSize ++ " bytes"⟩]
  | .binary => [⟨.debug, .files, "Skipping " ++ p.toString ++ ": binary content"⟩]
  | .unreadable error => [⟨.warning, .files, "Skipping " ++ p.toString ++ ": " ++ error.message⟩]

end SourceText
end SourceAudit
