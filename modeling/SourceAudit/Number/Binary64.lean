/-!
# Binary floating point, 64 bits

A value is a number `mantissa * 2 ^ exponent` with a sign, an infinity or not a number. Finite values are kept
in one form: the mantissa has 53 bits, or fewer at the least exponent. All arithmetic is exact on natural
numbers and rounds once, to nearest, a tie going to the even mantissa.
-/
namespace SourceAudit

/-- A 64-bit binary floating-point value. -/
inductive Binary64 where
  | nan
  | infinite (negative : Bool)
  | finite (negative : Bool) (mantissa : Nat) (exponent : Int)
  deriving DecidableEq, Repr, Inhabited

namespace Binary64

/-- The quotient of two naturals, rounded to nearest, a tie going to the even neighbour. -/
def roundDiv (num den : Nat) : Nat :=
  let q := num / den
  let r := num % den
  if 2 * r < den then q
  else if 2 * r > den then q + 1
  else if q % 2 = 0 then q else q + 1

/-- The least exponent of a finite value. -/
def minExponent : Int := -1074

/-- The greatest exponent of a finite value. -/
def maxExponent : Int := 971

/-- The greatest `k` with `2 ^ k ≤ num / den`, for positive `num` and `den`. -/
def log2Ratio (num den : Nat) : Int :=
  let k : Int := (num.log2 : Int) - den.log2
  if den <<< k.toNat ≤ num <<< (-k).toNat then k else k - 1

/-- The value nearest to `num / den`. -/
def ofRatio (negative : Bool) (num den : Nat) : Binary64 :=
  if num = 0 then .finite negative 0 minExponent
  else
    let q := max minExponent (log2Ratio num den - 52)
    let m := roundDiv (num <<< (-q).toNat) (den <<< q.toNat)
    let (m, q) := if m = 1 <<< 53 then (1 <<< 52, q + 1) else (m, q)
    if q > maxExponent then .infinite negative else .finite negative m q

/-- The value nearest to `digits * 10 ^ exp10`. Decimals beyond the range are decided by their size alone. -/
def ofDecimal (negative : Bool) (digits : Nat) (exp10 : Int) : Binary64 :=
  let size : Int := (Nat.toDigits 10 digits).length + exp10
  if digits = 0 || size < -330 then .finite negative 0 minExponent
  else if size > 310 then .infinite negative
  else ofRatio negative (digits * Nat.pow 10 exp10.toNat) (Nat.pow 10 (-exp10).toNat)

/-- The value nearest to an integer. -/
def ofInt (n : Int) : Binary64 := ofRatio (n < 0) n.natAbs 1

/-- The integer part, toward zero. -/
def truncate? : Binary64 → Option Int
  | .finite negative m q =>
    let n : Int := ((m <<< q.toNat) >>> (-q).toNat : Nat)
    some (if negative then -n else n)
  | _ => none

def negate : Binary64 → Binary64
  | .nan => .nan
  | .infinite negative => .infinite !negative
  | .finite negative m q => .finite (!negative) m q

/-- A value with its denominator `2 ^ 1074` cleared: an integer. -/
def scaled (negative : Bool) (mantissa : Nat) (exponent : Int) : Int :=
  let n : Int := (mantissa <<< (exponent - minExponent).toNat : Nat)
  if negative then -n else n

/-- A value plus `k` times another, each step rounded. -/
def addMul (x : Binary64) (k : Nat) (y : Binary64) : Binary64 :=
  let sum (a b : Binary64) : Binary64 :=
    match a, b with
    | .finite na ma qa, .finite nb mb qb =>
      let n := scaled na ma qa + scaled nb mb qb
      ofRatio (n < 0) n.natAbs (1 <<< 1074)
    | .finite .., b => b
    | .infinite na, .infinite nb => if na = nb then .infinite na else .nan
    | .infinite na, .finite .. => .infinite na
    | _, _ => .nan
  match y with
  | .finite n m q => sum x (ofRatio n ((k * m) <<< (q - minExponent).toNat) (1 <<< 1074))
  | y => sum x y

/-- Whether a value equals zero, of either sign. -/
def isZero : Binary64 → Bool
  | .finite _ m _ => m == 0
  | _ => false

/-- Whether a value is at most zero; not so for what is not a number. -/
def isNonpositive : Binary64 → Bool
  | .nan => false
  | .infinite negative => negative
  | .finite negative m _ => negative || m == 0

/-- Whether a value is less than one; not so for what is not a number. -/
def isBelowOne : Binary64 → Bool
  | .nan => false
  | .infinite negative => negative
  | .finite negative m q => negative || m <<< q.toNat < 1 <<< (-q).toNat

/-- Whether a value is the given integer. -/
def equalsInt (x : Binary64) (n : Int) : Bool :=
  match x with
  | .finite negative m q =>
    let a : Int := (m <<< q.toNat : Nat)
    (if negative then -a else a) == n * (1 <<< (-q).toNat : Nat)
  | _ => false

/-- Whether two values are equal as numbers: zeros of either sign are, nothing equals what is no number. -/
def equals : Binary64 → Binary64 → Bool
  | .nan, _ => false
  | _, .nan => false
  | x, y => x == y || (x.isZero && y.isZero)

end Binary64
end SourceAudit
