import SourceAudit.Text.Blank
import SourceAudit.Text.Lowercase
import SourceAudit.Text.WordChar

/-!
# Text patterns

A pattern describes pieces of text: single characters of a class, runs of such characters, conditions on the
characters at either side of a place, sequences and alternatives.

A *place* in a text is given by the character in front of it, if there is one, and the characters behind it. So a
pattern can tell the beginning of a text, where nothing stands in front, from the beginning of a line in it, where a
newline does.

* `Pattern.run p k` asks whether `p` matches some piece that starts at a place and ends at a place where `k`
  holds. Every way of matching is tried, so it does not matter which of them is preferred.
* `Pattern.find?` is the first place of a text at which a piece starts, counted in characters from zero.
-/
namespace SourceAudit

abbrev CharClass := Char → Bool

/-- A description of pieces of text. -/
inductive Pattern where
  /-- The empty piece. -/
  | empty
  /-- One character of a class. -/
  | one (ok : CharClass)
  /-- Any number of characters of a class. -/
  | many (ok : CharClass)
  /-- The empty piece at the edge of a word: a word character on one side only. -/
  | wordEdge
  /-- The empty piece, unless the character in front of it is of a class. -/
  | notAfter (bad : CharClass)
  /-- The empty piece, unless the character behind it is of a class. -/
  | notBefore (bad : CharClass)
  /-- A piece of the first, followed by a piece of the second. -/
  | seq (first second : Pattern)
  /-- A piece of either. -/
  | alt (left right : Pattern)

namespace Pattern

/-- What is asked of the place where a piece ends: the character in front of it and the characters behind. -/
abbrev Goal := Option Char → List Char → Bool

/-- Whether some number of characters of a class leads to a place where `k` holds. -/
def runMany (ok : CharClass) (k : Goal) : Option Char → List Char → Bool
  | before, [] => k before []
  | before, c :: rest => k before (c :: rest) || (ok c && runMany ok k (some c) rest)

/-- Whether the character behind a place is a word character. -/
def wordBehind : List Char → Bool
  | [] => false
  | c :: _ => Text.isWordChar c

/-- Whether a piece of the pattern starts at a place and ends at one where `k` holds. -/
def run : Pattern → Goal → Option Char → List Char → Bool
  | .empty, k, before, rest => k before rest
  | .one ok, k, _, rest =>
    match rest with
    | [] => false
    | c :: rest => ok c && k (some c) rest
  | .many ok, k, before, rest => runMany ok k before rest
  | .wordEdge, k, before, rest => before.any Text.isWordChar != wordBehind rest && k before rest
  | .notAfter bad, k, before, rest => !before.any bad && k before rest
  | .notBefore bad, k, before, rest =>
    match rest with
    | [] => k before []
    | c :: rest => !bad c && k before (c :: rest)
  | .seq p q, k, before, rest => p.run (q.run k) before rest
  | .alt p q, k, before, rest => p.run k before rest || q.run k before rest

/-- Whether a piece of the pattern starts at a place. -/
def startsAt (p : Pattern) (before : Option Char) (rest : List Char) : Bool := p.run (fun _ _ => true) before rest

/-- The first place, from number `i` on, at which a piece starts. -/
def findFrom (p : Pattern) (i : Nat) (before : Option Char) : List Char → Option Nat
  | [] => if p.startsAt before [] then some i else none
  | c :: rest => if p.startsAt before (c :: rest) then some i else p.findFrom (i + 1) (some c) rest

/-- The first place of a text at which a piece starts. -/
def find? (p : Pattern) (text : List Char) : Option Nat := p.findFrom 0 none text

def occursIn (p : Pattern) (text : List Char) : Bool := (p.find? text).isSome

/-! ## Building patterns -/

/-- Patterns one after the other. -/
def sequence : List Pattern → Pattern
  | [] => .empty
  | [p] => p
  | p :: rest => .seq p (sequence rest)

def never : Pattern := .one fun _ => false

def anyOf : List Pattern → Pattern
  | [] => never
  | [p] => p
  | p :: rest => .alt p (anyOf rest)

/-- A pattern that may be left out. -/
def optional (p : Pattern) : Pattern := .alt p .empty

/-- The characters of a word, as they are. -/
def wordChars (cs : List Char) : Pattern := sequence (cs.map fun c => .one (· == c))

def wordCharsAnyCase (cs : List Char) : Pattern := sequence (cs.map fun c => .one (Text.agreeAnyCase c))

def word (s : String) : Pattern := wordChars s.toList

def wordAnyCase (s : String) : Pattern := wordCharsAnyCase s.toList

def wordOf (words : List String) : Pattern := anyOf (words.map word)

def wordOfAnyCase (words : List String) : Pattern := anyOf (words.map wordAnyCase)

def blanks : Pattern := .many Text.isBlank

def atLeastOne (ok : CharClass) : Pattern := .seq (.one ok) (.many ok)

/-- One of the characters of a text. -/
def charOf (s : String) : CharClass := let cs := s.toList; fun c => cs.contains c

/-- Any characters of the same line. -/
def restOfLine : Pattern := .many (· != '\n')

/-- A quoted text without the quote inside. -/
def quotedBy (quote : Char) : Pattern := sequence [.one (· == quote), .many (· != quote), .one (· == quote)]

/-- The words of a list of markers, each taken literally. No words match everywhere. -/
def markers (words : List String) (anyCase : Bool) : Pattern :=
  match words with
  | [] => .empty
  | words => if anyCase then wordOfAnyCase words else wordOf words

end Pattern
end SourceAudit
