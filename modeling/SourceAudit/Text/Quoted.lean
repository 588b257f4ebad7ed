import SourceAudit.Text.CodePoint
import SourceAudit.Text.Printable

/-!
# Quoted text

A text is shown between single quotes, or between double quotes if it holds a single quote and no double
quote. The quote used and the backslash are escaped, tab, newline and carriage return have letters, and every
other unprintable character is written by its number.
-/
namespace SourceAudit.Text

/-- `n` in hexadecimal, lower case, with at least `width` digits. -/
def hex (width n : Nat) : String :=
  let digits := Nat.toDigits 16 n
  String.ofList (List.replicate (width - digits.length) '0' ++ digits)

def quoteChar (quote c : Char) : String :=
  if c = quote || c = '\\' then String.ofList ['\\', c]
  else if c = '\n' then "\\n"
  else if c = '\r' then "\\r"
  else if c = '\t' then "\\t"
  else if isPrintable c then String.singleton c
  else if c.toNat < 0x100 then "\\x" ++ hex 2 c.toNat
  else if c.toNat < 0x10000 then "\\u" ++ hex 4 c.toNat
  else "\\U" ++ hex 8 c.toNat

/-- A text as it is shown between quotes. -/
def quoted (s : String) : String :=
  let cs := s.toList
  let quote := if cs.contains '\'' && !cs.contains '"' then '"' else '\''
  String.singleton quote ++ String.join (cs.map (quoteChar quote)) ++ String.singleton quote

/-- A text from outside as it is shown between quotes. Surrogates that stand alone are written by their numbers. -/
def wideQuoted : WideText → String
  | .text s => quoted s
  | .illFormed t =>
    let quote := if t.codePoints.contains (.char '\'') && !t.codePoints.contains (.char '"') then '"' else '\''
    String.singleton quote ++
      String.join (t.codePoints.map fun
        | .char c => quoteChar quote c
        | .surrogate unit => "\\u" ++ hex 4 unit) ++
      String.singleton quote

end SourceAudit.Text
