import SpaMigration.Pattern.Basic

/-!
# Matching

`Pattern.run` matches a pattern at a position and hands the position after it to a continuation; when
the continuation fails, the next way to match is tried. The order of these attempts is the order of
preference, so the first success is the match. `Pattern.findAll` lists the matches of a text from left
to right without overlaps, and `Pattern.replaceAll` puts other text in their place.
-/
namespace SpaMigration

/-- A position in a text: the character before it, the text after it, and how many characters precede. -/
structure Cursor where
  before : Option Char
  rest : List Char
  index : Nat
  deriving Repr

namespace Cursor

/-- The start of a text. -/
def start (text : List Char) : Cursor := ⟨none, text, 0⟩

/-- The text from one position up to a later one. -/
def textTo (c d : Cursor) : List Char := c.rest.take (d.index - c.index)

end Cursor

namespace Anchor

/-- A word character stands before the position. -/
def wordBefore (c : Cursor) : Bool := c.before.any Text.isWordChar

/-- A word character stands after the position. -/
def wordAfter (c : Cursor) : Bool := c.rest.head?.any Text.isWordChar

/-- The position satisfies the condition. -/
def holds : Anchor → Cursor → Bool
  | .textStart, c => c.before.isNone
  | .textEnd, c => c.rest.isEmpty
  | .lineStart, c => c.before.all (· == '\n')
  | .lineEnd, c => c.rest.head?.all (· == '\n')
  | .wordBoundary, c => wordBefore c != wordAfter c
  | .noWordBoundary, c => wordBefore c == wordAfter c
  | .wordStart, c => !wordBefore c && wordAfter c
  | .wordEnd, c => wordBefore c && !wordAfter c
  | .wordStartHalf, c => !wordBefore c
  | .wordEndHalf, c => !wordAfter c

end Anchor

/-- The text each group matched, the latest entry first. -/
abbrev Groups := List (Nat × List Char)

namespace Pattern

/-- What is done at a position once the pattern has matched up to it. -/
abbrev Continuation (β : Type) := Cursor → Groups → Option β

/-- A matcher: all that remains to be known of a pattern. -/
abbrev Matcher (β : Type) := Cursor → Groups → Continuation β → Option β

/-- Up to `rounds` more rounds. A round that consumes nothing is the last one. -/
def upTo {β : Type} (step : Matcher β) (greedy : Bool) : Nat → Matcher β
  | 0, c, groups, k => k c groups
  | rounds + 1, c, groups, k =>
    let again := fun (_ : Unit) =>
      step c groups fun c' groups' =>
        if c'.index = c.index then k c' groups' else upTo step greedy rounds c' groups' k
    if greedy then (again ()).or (k c groups) else (k c groups).or (again ())

/-- Exactly `rounds` rounds, then whatever follows. -/
def exactly {β : Type} (step : Matcher β) : Nat → Matcher β → Matcher β
  | 0, next, c, groups, k => next c groups k
  | rounds + 1, next, c, groups, k =>
    step c groups fun c' groups' => exactly step rounds next c' groups' k

/-- The positions after zero, one, two and more characters of the set, at most `limit`, furthest
first. -/
def advances (chars : CharSet) :
    List Char → Option Nat → Option Char → Nat → List Cursor → List Cursor
  | [], _, before, index, found => ⟨before, [], index⟩ :: found
  | x :: xs, limit, before, index, found =>
    let found := ⟨before, x :: xs, index⟩ :: found
    if limit != some 0 && chars.contains x then
      advances chars xs (limit.map (· - 1)) (some x) (index + 1) found
    else found

/-- The first success over a list of positions. -/
def firstOf {β : Type} (groups : Groups) (k : Continuation β) : List Cursor → Option β
  | [] => none
  | c :: cs => (k c groups).or (firstOf groups k cs)

/-- Repetition of single characters of a set. -/
def runSet {β : Type} (chars : CharSet) (least : Nat) (most : Option Nat) (greedy : Bool) : Matcher β :=
  fun c groups k =>
    let reached := advances chars c.rest most c.before c.index []
    let enough := reached.takeWhile fun c' => decide (c.index + least ≤ c'.index)
    firstOf groups k (if greedy then enough else enough.reverse)

/-- Matches the pattern at a position and goes on with `k`. -/
def run {β : Type} : Pattern → Matcher β
  | .empty, c, groups, k => k c groups
  | .set chars, c, groups, k =>
    match c.rest with
    | [] => none
    | x :: xs => if chars.contains x then k ⟨some x, xs, c.index + 1⟩ groups else none
  | .anchor position, c, groups, k => if position.holds c then k c groups else none
  | .seq first second, c, groups, k =>
    first.run c groups fun c' groups' => second.run c' groups' k
  | .alt preferred other, c, groups, k => (preferred.run c groups k).or (other.run c groups k)
  | .repeated (.set chars) least most greedy, c, groups, k =>
    runSet chars least most greedy c groups k
  | .repeated body least most greedy, c, groups, k =>
    let rounds := match most with
      | some most => most - least
      | none => c.rest.length + 1
    exactly body.run least (upTo body.run greedy rounds) c groups k
  | .group index body, c, groups, k =>
    body.run c groups fun c' groups' => k c' ((index, c.textTo c') :: groups')

end Pattern

/-- A stretch of text that a pattern matched, and what its groups matched. -/
structure Match where
  start : Cursor
  stop : Cursor
  groups : Groups

namespace Match

/-- The text of the whole match. -/
def text (m : Match) : List Char := m.start.textTo m.stop

/-- The text of a group; group zero is the whole match. -/
def group? (m : Match) (index : Nat) : Option (List Char) :=
  if index = 0 then some m.text else (m.groups.find? (·.1 == index)).map (·.2)

/-- The text of a group, empty when the group took no part. -/
def group (m : Match) (index : Nat) : List Char := (m.group? index).getD []

end Match

namespace Pattern

/-- The match that starts exactly at a position. -/
def matchAt? (p : Pattern) (c : Cursor) : Option Match :=
  p.run c [] fun c' groups => some ⟨c, c', groups⟩

/-- The first match at or after a position. -/
def findFrom? (p : Pattern) : List Char → Option Char → Nat → Option Match
  | [], before, index => p.matchAt? ⟨before, [], index⟩
  | x :: xs, before, index =>
    (p.matchAt? ⟨before, x :: xs, index⟩).or (p.findFrom? xs (some x) (index + 1))

/-- The first match of a text. -/
def find? (p : Pattern) (text : List Char) : Option Match := p.findFrom? text none 0

/-- The text has a match. -/
def occursIn (p : Pattern) (text : List Char) : Bool := (p.find? text).isSome

/-- The next match at or after `c`. A match that is empty and ends where the last one ended does not
count; the search then starts one character later. -/
def next? (p : Pattern) (c : Cursor) (lastEnd : Option Nat) : Option Match :=
  match p.findFrom? c.rest c.before c.index with
  | none => none
  | some m =>
    if m.start.index = m.stop.index ∧ lastEnd = some m.stop.index then
      match c.rest with
      | [] => none
      | x :: xs => p.findFrom? xs (some x) (c.index + 1)
    else some m

/-- The matches from a position on. -/
def matchesFrom (p : Pattern) : Nat → Cursor → Option Nat → List Match
  | 0, _, _ => []
  | fuel + 1, c, lastEnd =>
    match p.next? c lastEnd with
    | none => []
    | some m => m :: matchesFrom p fuel m.stop (some m.stop.index)

/-- The matches of a text, from left to right. -/
def findAll (p : Pattern) (text : List Char) : List Match :=
  p.matchesFrom (2 * text.length + 2) (Cursor.start text) none

/-- The text after `c` with each match replaced. -/
def spliceFrom (replacement : Match → List Char) (c : Cursor) : List Match → List Char
  | [] => c.rest
  | m :: ms => c.textTo m.start ++ replacement m ++ spliceFrom replacement m.stop ms

/-- The text with every match replaced. -/
def replaceAll (p : Pattern) (replacement : Match → List Char) (text : List Char) : List Char :=
  spliceFrom replacement (Cursor.start text) (p.findAll text)

end Pattern

end SpaMigration
