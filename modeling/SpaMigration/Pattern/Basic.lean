import SpaMigration.Text.Blank
import SpaMigration.Text.CaseFolding
import SpaMigration.Text.Digit
import SpaMigration.Text.Word

/-!
# Text patterns

A pattern describes stretches of text: characters of a set, positions, sequences, ordered
alternatives, repetitions and numbered groups. Repetitions prefer more rounds or fewer, and an
alternative on the left is preferred to one on the right, so a pattern names at most one match at
each position. The module ends with the builders that fixed patterns are written with.
-/
namespace SpaMigration

/-- A set of characters. -/
inductive CharSet where
  | none
  | all
  | range (lo hi : Char)
  | word
  | digit
  | blank
  | union (a b : CharSet)
  | inter (a b : CharSet)
  | compl (a : CharSet)
  /-- The characters of the set and their case variants. -/
  | caseless (a : CharSet)
  deriving DecidableEq, Repr, Inhabited

namespace CharSet

/-- The set holds the character. -/
def contains : CharSet → Char → Bool
  | .none, _ => false
  | .all, _ => true
  | .range lo hi, c => decide (lo ≤ c) && decide (c ≤ hi)
  | .word, c => Text.isWordChar c
  | .digit, c => Text.isDecimalDigit c
  | .blank, c => Text.isBlank c
  | .union a b, c => a.contains c || b.contains c
  | .inter a b, c => a.contains c && b.contains c
  | .compl a, c => !a.contains c
  | .caseless a, c => (Text.caseVariants c).any a.contains

/-- The set of one character. -/
def single (c : Char) : CharSet := .range c c

/-- The set of the listed characters. -/
def ofList (cs : List Char) : CharSet := cs.foldr (fun c set => .union (single c) set) .none

end CharSet

/-- A condition on a position between two characters. -/
inductive Anchor where
  | textStart
  | textEnd
  | lineStart
  | lineEnd
  | wordBoundary
  | noWordBoundary
  | wordStart
  | wordEnd
  | wordStartHalf
  | wordEndHalf
  deriving DecidableEq, Repr

/-- A pattern for stretches of text. -/
inductive Pattern where
  | empty
  | set (chars : CharSet)
  | anchor (position : Anchor)
  | seq (first second : Pattern)
  | alt (preferred other : Pattern)
  | repeated (body : Pattern) (least : Nat) (most : Option Nat) (greedy : Bool)
  | group (index : Nat) (body : Pattern)
  deriving DecidableEq, Repr, Inhabited

namespace Pattern

/-- One after another. -/
def cat (ps : List Pattern) : Pattern := ps.foldr .seq .empty

/-- The first of the alternatives that matches; at least one is given. -/
def choice : List Pattern → Pattern
  | [] => .set .none
  | [p] => p
  | p :: ps => .alt p (choice ps)

/-- The characters of a text in order. -/
def text (s : String) : Pattern := cat (s.toList.map fun c => .set (.single c))

/-- Any one of the characters of a text. -/
def oneOf (s : String) : Pattern := .set (.ofList s.toList)

/-- Any one character that is not in a text. -/
def noneOf (s : String) : Pattern := .set (.compl (.ofList s.toList))

/-- Any number of rounds, as many as possible. -/
def many (p : Pattern) : Pattern := .repeated p 0 none true

/-- Any number of rounds, as few as possible. -/
def manyLazy (p : Pattern) : Pattern := .repeated p 0 none false

/-- One round or more, as many as possible. -/
def atLeastOne (p : Pattern) : Pattern := .repeated p 1 none true

/-- One round or none, one if possible. -/
def optional (p : Pattern) : Pattern := .repeated p 0 (some 1) true

/-- Any amount of white space. -/
def blanks : Pattern := many (.set .blank)

/-- White space of at least one character. -/
def blanks1 : Pattern := atLeastOne (.set .blank)

/-- A single or a double quote. -/
def quote : Pattern := oneOf "'\""

/-- A position between a word character and one that is none. -/
def boundary : Pattern := .anchor .wordBoundary

end Pattern

end SpaMigration
