import SourceAudit.Association
import SourceAudit.Number.Binary64
import SourceAudit.Text.Quoted

/-!
# JSON values

Integers are kept apart from other numbers and have no bound. The members of an object are in order of their
first appearance, each name once. The texts of a value are strings unless another type is named, such as one that
keeps surrogates that stand alone.
-/
namespace SourceAudit

/-- A JSON value with texts of type `τ`. -/
inductive Json (τ : Type := String) where
  | null
  | bool (b : Bool)
  | int (n : Int)
  | real (x : Binary64)
  | string (s : τ)
  | array (items : List (Json τ))
  | object (members : List (String × Json τ))
  deriving Inhabited, Repr

/-- Texts of JSON values: how they are read and shown. -/
class JsonText (τ : Type) where
  ofCodePoints : List CodePoint → τ
  isEmpty : τ → Bool
  shown : τ → String
  quoted : τ → String

instance : JsonText String where
  ofCodePoints cs := String.ofList (cs.map CodePoint.shown)
  isEmpty s := s == ""
  shown s := s
  quoted := Text.quoted

instance : JsonText WideText where
  ofCodePoints := WideText.ofCodePoints
  isEmpty := WideText.isEmpty
  shown := WideText.shown
  quoted := Text.wideQuoted

namespace Json

variable {τ : Type}

def get? (name : String) : Json τ → Option (Json τ)
  | .object members => members.lookup name
  | _ => none

def isObject : Json τ → Bool
  | .object _ => true
  | _ => false

/-- Whether a value stands for *yes*: anything but null, false, zero and what is empty. -/
def isTruthy [JsonText τ] : Json τ → Bool
  | .null => false
  | .bool b => b
  | .int n => n != 0
  | .real x => !x.isZero
  | .string s => !JsonText.isEmpty s
  | .array items => !items.isEmpty
  | .object members => !members.isEmpty

end Json
end SourceAudit
