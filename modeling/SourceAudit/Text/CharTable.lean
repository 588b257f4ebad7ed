/-!
# Sets of characters given by ranges

A property of a character standard (letters, digits, printable characters) is a set of code points. It is
kept as ascending, disjoint, inclusive ranges and looked up by bisection.
-/
namespace SourceAudit.Text

/-- A set of code points: ascending, disjoint ranges, both ends included. -/
structure CharTable where
  ranges : Array (Nat × Nat)

namespace CharTable

/-- Bisection between the range indices `lo` (included) and `hi` (excluded); `fuel` bounds the halvings. -/
def within (t : CharTable) (n : Nat) : (fuel lo hi : Nat) → Bool
  | 0, _, _ => false
  | fuel + 1, lo, hi =>
    if lo < hi then
      let mid := (lo + hi) / 2
      match t.ranges[mid]? with
      | none => false
      | some (first, last) =>
        if n < first then t.within n fuel lo mid
        else if last < n then t.within n fuel (mid + 1) hi
        else true
    else false

/-- Whether a character lies in one of the ranges. -/
def contains (t : CharTable) (c : Char) : Bool :=
  t.within c.toNat (t.ranges.size.log2 + 2) 0 t.ranges.size

end CharTable
end SourceAudit.Text
