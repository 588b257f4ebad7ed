/-!
# Association lists

Pairs of keys and values, each key once, in the order in which the keys were first set.
-/
namespace SourceAudit.Association

variable {α β : Type} [DecidableEq α]

/-- Sets the value of a key: a new key goes to the end, a key that is present keeps its place. -/
def set (key : α) (value : β) : List (α × β) → List (α × β)
  | [] => [(key, value)]
  | (k, v) :: rest => if k = key then (k, value) :: rest else (k, v) :: set key value rest

/-- Changes the value of a key; a key that is not present counts as having the value `initial`. -/
def update (key : α) (initial : β) (change : β → β) (pairs : List (α × β)) : List (α × β) :=
  set key (change ((pairs.lookup key).getD initial)) pairs

end SourceAudit.Association
