import SourceAudit.Text.Quoted
import SourceAudit.Text.Utf8

/-!
# Paths inside addresses

In the address of a file, ASCII letters, digits, `_`, `.`, `-`, `~` and the separator `/` stand for
themselves. Every other byte of the UTF-8 form is written as a percent sign and two upper-case hexadecimal
digits.
-/
namespace SourceAudit.Text

/-- Whether a byte stands for itself in an address. -/
def isPlainByte (b : UInt8) : Bool :=
  let c := Char.ofNat b.toNat
  b.toNat < 0x80 && (c.isAlphanum || c == '_' || c == '.' || c == '-' || c == '~' || c == '/')

/-- The address form of a path. -/
def percentEncoded (s : String) : String :=
  String.join <| (Utf8.encode s.toList).map fun b =>
    if isPlainByte b then String.singleton (Char.ofNat b.toNat)
    else "%" ++ (hex 2 b.toNat).toUpper

end SourceAudit.Text
