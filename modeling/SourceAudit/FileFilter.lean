import SourceAudit.Language

/-!
# Candidate files

A filter selects files by their extension, or, among files that look like text configuration, by a keyword
anywhere in the path. Letter case does not matter.
-/
namespace SourceAudit

/-- Extensions of files that look like text configuration. -/
def keywordExtensions : List String := [".json", ".yaml", ".yml", ".toml", ".ini", ".cfg", ".conf", ".env"]

/-- The beginning of a file name that looks like text configuration whatever its extension. -/
def keywordFileName : String := ".env"

/-- Selects files by extension or by keyword. -/
structure FileFilter where
  extensions : List String := []
  keywords : List String := []
  deriving DecidableEq, Repr

def occursWithin (piece text : List Char) : Bool :=
  piece.isPrefixOf text ||
    match text with
    | [] => false
    | _ :: rest => occursWithin piece rest

/-- Whether a filter selects the file of a path below the root of the tree. -/
def FileFilter.selects (f : FileFilter) (relative : String) : Bool :=
  let name := Text.lower (baseName relative)
  let extension := extensionOf name
  if f.extensions.contains extension then true
  else if !keywordExtensions.contains extension && !keywordFileName.toList.isPrefixOf name.toList then false
  else
    let lowered := (Text.lower relative).toList
    f.keywords.any fun k => occursWithin k.toList lowered

end SourceAudit
