import SourceAudit.Text.CodePoint

/-!
# Paths

A path is a root, which is empty for a relative path, and the names below it. Empty names and single dots are
left out; double dots stay, since what they mean depends on links. A path that begins with exactly two slashes
keeps both.

The text of a path may be ill-formed. Its names then tell surrogates from characters by two slashes in front of them,
which no name holds otherwise.
-/
namespace SourceAudit

/-- A path: a root (`""`, `"/"` or `"//"`) and the names below it. -/
structure Path where
  root : String := ""
  names : List String := []
  deriving DecidableEq, Repr, Inhabited

namespace Path

/-- Cuts a text at each occurrence of a symbol. -/
def splitAt {α : Type} [DecidableEq α] (cut : α) (cs : List α) : List (List α) :=
  cs.foldr (fun c parts =>
    match parts with
    | [] => if c = cut then [[], []] else [[c]]
    | part :: rest => if c = cut then [] :: part :: rest else (c :: part) :: rest) [[]]

/-- Cuts a text at each slash. -/
def splitSlashes (cs : List Char) : List (List Char) := splitAt '/' cs

/-- The root that a text begins with. -/
def rootOf (cs : List Char) : String :=
  match cs with
  | '/' :: '/' :: '/' :: _ => "/"
  | '/' :: '/' :: _ => "//"
  | '/' :: _ => "/"
  | _ => ""

/-- The path that a text writes. -/
def ofString (s : String) : Path :=
  let cs := s.toList
  ⟨rootOf cs, ((splitSlashes cs).map String.ofList).filter fun n => n != "" && n != "."⟩

def nameOf (cs : List CodePoint) : String :=
  String.ofList (cs.flatMap fun
    | .char c => [c]
    | .surrogate unit => ['/', '/', Char.ofNat (unit - 0xD800)])

def codePointsOf : List Char → List CodePoint
  | [] => []
  | '/' :: '/' :: c :: rest => .surrogate (0xD800 + c.toNat) :: codePointsOf rest
  | c :: rest => .char c :: codePointsOf rest

def ofCodePoints (cs : List CodePoint) : Path :=
  ⟨rootOf (cs.map CodePoint.shown), ((splitAt (.char '/') cs).map nameOf).filter fun n => n != "" && n != "."⟩

/-- The names of a text that is cut at its slashes, each with the root that the rest of the text begins with. One slash
keeps two names apart, and any more begin the rest. -/
def steps : List (List Char) → List (String × String)
  | [] => []
  | part :: rest =>
    if part = [] ∨ part = ['.'] then steps rest
    else (String.ofList part, rootOf (['/'].intercalate rest)) :: steps rest

/-- A path as text. The empty relative path is a single dot. -/
def toString (p : Path) : String :=
  if p.root = "" && p.names.isEmpty then "." else p.root ++ "/".intercalate p.names

/-- Whether a path begins at a root. -/
def isAbsolute (p : Path) : Bool := p.root != ""

/-- A path below another; an absolute one replaces it. -/
def join (p q : Path) : Path := if q.isAbsolute then q else ⟨p.root, p.names ++ q.names⟩

def child (p : Path) (name : String) : Path := ⟨p.root, p.names ++ [name]⟩

/-- The path without its last name. -/
def parent (p : Path) : Path := ⟨p.root, p.names.dropLast⟩

def fileName (p : Path) : String := p.names.getLast?.getD ""

/-- Splits a name at its last dot: what precedes the dot, and what follows it. -/
def splitLastDot? (name : List Char) : Option (List Char × List Char) :=
  match name.reverse.span (· != '.') with
  | (after, _ :: before) => some (before.reverse, after.reverse)
  | (_, []) => none

/-- The extension of a path, dot included: from the last dot of the last name, unless that dot is the first or
the last character. -/
def suffix (p : Path) : String :=
  match splitLastDot? p.fileName.toList with
  | some (before, after) => if before.isEmpty || after.isEmpty then "" else String.ofList ('.' :: after)
  | none => ""

end Path

/-- What follows the last slash of a text. -/
def baseName (s : String) : String := String.ofList ((s.toList.reverse.takeWhile (· != '/')).reverse)

/-- The extension of a file name, dot included: from the last dot, unless only dots precede it. -/
def extensionOf (name : String) : String :=
  match Path.splitLastDot? name.toList with
  | some (before, after) => if before.all (· == '.') then "" else String.ofList ('.' :: after)
  | none => ""

end SourceAudit
