import SourceAudit.Json.Basic
import SourceAudit.Number.Decimal

/-!
# JSON values in messages

`Json.literal` shows a value so that a text can be told from a number. `Json.display` shows a text as it is and
any other value by its literal.
-/
namespace SourceAudit.Json

variable {τ : Type} [JsonText τ]

mutual
/-- A value as it is shown inside another. -/
def literal : Json τ → String
  | .null => "None"
  | .bool b => if b then "True" else "False"
  | .int n => toString n
  | .real x => x.text
  | .string s => JsonText.quoted s
  | .array items => "[" ++ literals items ++ "]"
  | .object members => "\x7b" ++ memberLiterals members ++ "\x7d"

/-- Items between commas. -/
def literals : List (Json τ) → String
  | [] => ""
  | [v] => literal v
  | v :: rest => literal v ++ ", " ++ literals rest

/-- Members between commas. -/
def memberLiterals : List (String × Json τ) → String
  | [] => ""
  | [(name, v)] => Text.quoted name ++ ": " ++ literal v
  | (name, v) :: rest => Text.quoted name ++ ": " ++ literal v ++ ", " ++ memberLiterals rest
end

/-- A value as it is shown in a sentence. -/
def display : Json τ → String
  | .string s => JsonText.shown s
  | v => v.literal

omit [JsonText τ] in
/-- The name of a value's kind. -/
def kindName : Json τ → String
  | .null => "NoneType"
  | .bool _ => "bool"
  | .int _ => "int"
  | .real _ => "float"
  | .string _ => "str"
  | .array _ => "list"
  | .object _ => "dict"

end SourceAudit.Json
