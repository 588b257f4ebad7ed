/-!
# Stable sorting

Items are inserted one by one, each behind those whose keys are not greater. So items with the same key keep their
order.
-/
namespace SourceAudit

variable {α κ : Type} [LE κ] [DecidableLE κ]

/-- Inserts an item before the first one with a greater key. -/
def insertBy (key : α → κ) (item : α) : List α → List α
  | [] => [item]
  | first :: rest => if key first ≤ key item then first :: insertBy key item rest else item :: first :: rest

/-- Items by key, those with the same key in their order. -/
def sortBy (key : α → κ) (items : List α) : List α := items.foldl (fun sorted item => insertBy key item sorted) []

end SourceAudit
