/-!
# UTF-8

Texts are written as UTF-8 and read back from bytes that may be malformed. Reading is a machine that consumes
one byte at a time: it is either between characters or inside one, in which case it knows which bytes may
come next. A byte that may not come next ends the character begun so far as *one* fault and is then read from
scratch. So every maximal piece of a character that breaks off is one fault, and a byte that starts no
character is one fault.

`decode?` accepts well-formed bytes only; `decodeLossy` puts U+FFFD for each fault.
-/
namespace SourceAudit.Text.Utf8

/-- The bytes of one character. -/
def encodeChar (c : Char) : List UInt8 :=
  let n := c.toNat
  if n < 0x80 then [n.toUInt8]
  else if n < 0x800 then [(0xC0 + n / 0x40).toUInt8, (0x80 + n % 0x40).toUInt8]
  else if n < 0x10000 then
    [(0xE0 + n / 0x1000).toUInt8, (0x80 + n / 0x40 % 0x40).toUInt8, (0x80 + n % 0x40).toUInt8]
  else
    [(0xF0 + n / 0x40000).toUInt8, (0x80 + n / 0x1000 % 0x40).toUInt8, (0x80 + n / 0x40 % 0x40).toUInt8,
      (0x80 + n % 0x40).toUInt8]

def encode (cs : List Char) : List UInt8 := cs.flatMap encodeChar

/-- Where the reader stands: between characters, or inside one of which `value` has been read, `more` bytes
are missing and the next of them lies between `lo` and `hi`. -/
inductive State where
  | ready
  | inside (value more lo hi : Nat)
  deriving DecidableEq, Repr

/-- What one byte does between characters. A character that is complete is `some`, a fault is `none`. -/
def start (b : UInt8) : State × List (Option Char) :=
  let n := b.toNat
  if n < 0x80 then (.ready, [some (Char.ofNat n)])
  else if 0xC2 ≤ n && n ≤ 0xDF then (.inside (n - 0xC0) 1 0x80 0xBF, [])
  else if 0xE0 ≤ n && n ≤ 0xEF then
    (.inside (n - 0xE0) 2 (if n = 0xE0 then 0xA0 else 0x80) (if n = 0xED then 0x9F else 0xBF), [])
  else if 0xF0 ≤ n && n ≤ 0xF4 then
    (.inside (n - 0xF0) 3 (if n = 0xF0 then 0x90 else 0x80) (if n = 0xF4 then 0x8F else 0xBF), [])
  else (.ready, [none])

/-- What one byte does. -/
def step : State → UInt8 → State × List (Option Char)
  | .ready, b => start b
  | .inside value more lo hi, b =>
    let n := b.toNat
    if lo ≤ n && n ≤ hi then
      let value := value * 0x40 + (n - 0x80)
      if more ≤ 1 then (.ready, [some (Char.ofNat value)])
      else (.inside value (more - 1) 0x80 0xBF, [])
    else
      let (state, out) := start b
      (state, none :: out)

/-- What the end of the bytes does: a character that has begun breaks off. -/
def finish : State → List (Option Char)
  | .ready => []
  | .inside .. => [none]

/-- Runs the reader from a state; `out` holds what has been read so far, last first. -/
def readFrom (state : State) (out : List (Option Char)) : List UInt8 → List (Option Char)
  | [] => ((finish state).reverse ++ out).reverse
  | b :: rest =>
    let (state, new) := step state b
    readFrom state (new.reverse ++ out) rest

/-- The characters of a byte sequence, with a `none` for each fault. -/
def read (bytes : List UInt8) : List (Option Char) := readFrom .ready [] bytes

/-- The text of well-formed bytes. -/
def decode? (bytes : List UInt8) : Option (List Char) :=
  let cs := read bytes
  if cs.all Option.isSome then some (cs.filterMap id) else none

/-- The text of any bytes: a fault is read as U+FFFD. -/
def decodeLossy (bytes : List UInt8) : List Char := (read bytes).map (·.getD '�')

/-! ## The first fault -/

/-- Why bytes are malformed. -/
inductive Reason where
  | invalidStart
  | invalidContinuation
  | unexpectedEnd
  deriving DecidableEq, Repr

/-- A piece of bytes that is no character. -/
structure Fault where
  offset : Nat
  bytes : List UInt8
  reason : Reason
  deriving DecidableEq, Repr

/-- The first fault of bytes that begin at an offset. `piece` holds the bytes of the character begun, last first. -/
def faultFrom (state : State) (offset : Nat) (piece : List UInt8) : List UInt8 → Option Fault
  | [] => if piece.isEmpty then none else some ⟨offset - piece.length, piece.reverse, .unexpectedEnd⟩
  | b :: rest =>
    match step state b, piece with
    | (_, none :: _), [] => some ⟨offset, [b], .invalidStart⟩
    | (_, none :: _), piece => some ⟨offset - piece.length, piece.reverse, .invalidContinuation⟩
    | (.ready, _), _ => faultFrom .ready (offset + 1) [] rest
    | (state, _), piece => faultFrom state (offset + 1) (b :: piece) rest

def firstFault? (bytes : List UInt8) : Option Fault := faultFrom .ready 0 [] bytes

end SourceAudit.Text.Utf8
