import SourceAudit.Number.Binary64

/-!
# Floating-point values as decimal text

Two selections of digits, and one layout.

* `shortest`: the fewest digits that read back to the value, and of those the nearest.
* `significant`: a set number of significant digits of the exact value, a tie going to the even digit.

`text` writes the shortest digits positionally for magnitudes from 10^-4 up to 10^16 and with an exponent
otherwise; an integral value keeps a point and a zero. `general` writes at most six significant digits,
positionally below 10^6, without trailing zeros.
-/
namespace SourceAudit.Binary64

structure Decimal where
  digits : Nat
  exp : Int
  deriving DecidableEq, Repr

/-- Compares `a * 10 ^ i` with `n * 2 ^ j`, exactly. -/
def compareScaled (a : Nat) (i : Int) (n : Nat) (j : Int) : Ordering :=
  compare ((a * Nat.pow 10 i.toNat) <<< (-j).toNat) ((n <<< j.toNat) * Nat.pow 10 (-i).toNat)

/-- Whether a decimal lies among the reals that round to `m * 2 ^ q`. Below a power of two the next value is
only half as far away. The ends of the interval round to the even mantissa. -/
def readsBack (m : Nat) (q : Int) (d : Decimal) : Bool :=
  let lo := if m = 1 <<< 52 ∧ q > minExponent then 4 * m - 1 else 4 * m - 2
  let hi := 4 * m + 2
  let low := compareScaled d.digits d.exp lo (q - 2)
  let high := compareScaled d.digits d.exp hi (q - 2)
  (low == .gt || (m % 2 == 0 && low == .eq)) && (high == .lt || (m % 2 == 0 && high == .eq))

/-- The least `k` with `m * 2 ^ q < 10 ^ k`, found near an estimate from the binary logarithm. -/
def magnitude (m : Nat) (q : Int) : Int :=
  let estimate := ((m.log2 : Int) + q) * 30103 / 100000
  let below (k : Int) : Bool := compareScaled 1 k m q == .gt
  [estimate - 1, estimate, estimate + 1, estimate + 2].find? below |>.getD (estimate + 3)

/-- The greatest point of the grid `10 ^ e` that is at most `m * 2 ^ q`. -/
def floorOnGrid (m : Nat) (q e : Int) : Nat :=
  (m <<< q.toNat) * Nat.pow 10 (-e).toNat / (Nat.pow 10 e.toNat <<< (-q).toNat)

/-- The nearest point of the grid `10 ^ e`, a tie going to the even one. -/
def nearestOnGrid (m : Nat) (q e : Int) : Nat :=
  roundDiv ((m <<< q.toNat) * Nat.pow 10 (-e).toNat) (Nat.pow 10 e.toNat <<< (-q).toNat)

/-- The neighbour of `m * 2 ^ q` on the grid of `n` significant digits that reads back, if one does; of two the
nearer. -/
def selectOnGrid (m : Nat) (q k : Int) (n : Nat) : Option Decimal :=
  let e := k - n
  let low : Decimal := ⟨floorOnGrid m q e, e⟩
  let high : Decimal := ⟨low.digits + 1, e⟩
  match readsBack m q low, readsBack m q high with
  | true, true => some ⟨nearestOnGrid m q e, e⟩
  | true, false => some low
  | false, true => some high
  | false, false => none

/-- Moves trailing zeros of the digits into the exponent; `fuel` bounds their number. -/
def Decimal.stripZeros : (fuel : Nat) → Decimal → Decimal
  | 0, d => d
  | fuel + 1, d => if d.digits % 10 = 0 ∧ d.digits ≠ 0 then stripZeros fuel ⟨d.digits / 10, d.exp + 1⟩ else d

/-- The fewest digits that read back to `m * 2 ^ q`, for a positive `m`. -/
def shortest (m : Nat) (q : Int) : Decimal :=
  let k := magnitude m q
  let found := (List.range 17).findSome? fun i => selectOnGrid m q k (i + 1)
  (found.getD ⟨(m <<< q.toNat) * Nat.pow 5 (-q).toNat, min q 0⟩).stripZeros 800

/-- The first `n` significant digits of `m * 2 ^ q`, rounded, without trailing zeros. -/
def significant (n : Nat) (m : Nat) (q : Int) : Decimal :=
  let e := magnitude m q - n
  (Decimal.mk (nearestOnGrid m q e) e).stripZeros (n + 1)

def Decimal.digitText (d : Decimal) : List Char := Nat.toDigits 10 d.digits

/-- The exponent of the leading digit. -/
def Decimal.leading (d : Decimal) : Int := d.digitText.length + d.exp - 1

/-- Positional notation, with `point` after an integral value. -/
def Decimal.positional (d : Decimal) (point : String) : String :=
  let ds := d.digitText
  if d.exp ≥ 0 then String.ofList (ds ++ List.replicate d.exp.toNat '0') ++ point
  else
    let places := (-d.exp).toNat
    let padded := List.replicate (places + 1 - ds.length) '0' ++ ds
    String.ofList (padded.take (padded.length - places) ++ '.' :: padded.drop (padded.length - places))

/-- Notation with a signed exponent of at least two digits. -/
def Decimal.scientific (d : Decimal) : String :=
  let e := d.leading
  let digits := match d.digitText with
    | [] => []
    | [c] => [c]
    | c :: rest => c :: '.' :: rest
  let size := Nat.toDigits 10 e.natAbs
  String.ofList (digits ++ ['e', if e < 0 then '-' else '+'] ++ List.replicate (2 - size.length) '0' ++ size)

/-- A sign in front of a text. -/
def signed (negative : Bool) (s : String) : String := if negative then "-" ++ s else s

/-- The fewest digits that read back, positionally for leading exponents from -4 to 15. -/
def text : Binary64 → String
  | .nan => "nan"
  | .infinite negative => signed negative "inf"
  | .finite negative 0 _ => signed negative "0.0"
  | .finite negative m q =>
    let d := shortest m q
    signed negative (if -4 ≤ d.leading && d.leading < 16 then d.positional ".0" else d.scientific)

/-- At most six significant digits, positionally for leading exponents from -4 to 5. -/
def general : Binary64 → String
  | .nan => "nan"
  | .infinite negative => signed negative "inf"
  | .finite negative 0 _ => signed negative "0"
  | .finite negative m q =>
    let d := significant 6 m q
    signed negative (if -4 ≤ d.leading && d.leading < 6 then d.positional "" else d.scientific)

end SourceAudit.Binary64
