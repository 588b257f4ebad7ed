import SourceAudit.Path
import SourceAudit.Yaml.Value

/-!
# YAML files

The bytes of a file are UTF-8, with any kind of line end.
-/
namespace SourceAudit.Yaml

/-- Why a file holds no value. -/
inductive FileFault where
  | notText (fault : Text.Utf8.Fault)
  | yaml (error : Error)
  deriving Repr

/-- The wording of malformed bytes. What breaks off at the end is counted from its own beginning. -/
def malformedText (fault : Text.Utf8.Fault) : String :=
  let first := if fault.reason = .unexpectedEnd then 0 else fault.offset
  (match fault.bytes with
    | [b] => "byte 0x" ++ Text.hex 2 b.toNat ++ " in position " ++ toString first
    | bytes => "bytes in position " ++ toString first ++ "-" ++ toString (first + bytes.length - 1)) ++
  (match fault.reason with
    | .invalidStart => ": invalid start byte"
    | .invalidContinuation => ": invalid continuation byte"
    | .unexpectedEnd => ": unexpected end of data")

def FileFault.message (path : Path) : FileFault → String
  | .notText fault => "'utf-8' codec can't decode " ++ malformedText fault
  | .yaml error => error.message path.toString

/-- A text with every kind of line end as a newline. -/
def withNewlines : List Char → List Char
  | [] => []
  | '\r' :: '\n' :: rest => '\n' :: withNewlines rest
  | '\r' :: rest => '\n' :: withNewlines rest
  | ch :: rest => ch :: withNewlines rest

def valueOfBytes (bytes : List UInt8) : Except FileFault Datum :=
  match Text.Utf8.firstFault? bytes with
  | some fault => .error (.notText fault)
  | none => (read (withNewlines (Text.Utf8.decodeLossy bytes))).mapError .yaml

/-- The value that the bytes of a file hold, or the wording of what is wrong. -/
def reader (path : Path) (bytes : List UInt8) : Except String Datum := (valueOfBytes bytes).mapError (·.message path)

end SourceAudit.Yaml
