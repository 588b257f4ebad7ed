/-!
# Code points

A text from outside may hold surrogates that stand alone. It is then no sequence of characters, and is kept as a
sequence of code points.
-/
namespace SourceAudit

/-- A character, or a surrogate that stands alone. -/
inductive CodePoint where
  | char (c : Char)
  | surrogate (unit : Nat)
  deriving DecidableEq, Repr

namespace CodePoint

def ofUnit (unit : Nat) : CodePoint := if unit.isValidChar then .char (Char.ofNat unit) else .surrogate unit

def isSurrogate : CodePoint → Bool
  | .char _ => false
  | .surrogate _ => true

def shown : CodePoint → Char
  | .char c => c
  | .surrogate _ => '�'

/-- Whether the name of a file can hold a code point. Some surrogates stand for bytes that are no UTF-8. -/
def isEncodable : CodePoint → Bool
  | .char _ => true
  | .surrogate unit => 0xDC80 ≤ unit && unit ≤ 0xDCFF

end CodePoint

/-- A text in which a surrogate stands alone. -/
structure IllFormedText where
  codePoints : List CodePoint
  ill : codePoints.any CodePoint.isSurrogate = true
  deriving DecidableEq, Repr

inductive WideText where
  | text (s : String)
  | illFormed (t : IllFormedText)
  deriving DecidableEq, Repr

namespace WideText

def ofCodePoints (cs : List CodePoint) : WideText :=
  if h : cs.any CodePoint.isSurrogate = true then .illFormed ⟨cs, h⟩
  else .text (String.ofList (cs.map CodePoint.shown))

def isEmpty : WideText → Bool
  | .text s => s == ""
  | .illFormed _ => false

/-- The text as it is shown. Surrogates that stand alone are replaced. -/
def shown : WideText → String
  | .text s => s
  | .illFormed t => String.ofList (t.codePoints.map CodePoint.shown)

end WideText

end SourceAudit
