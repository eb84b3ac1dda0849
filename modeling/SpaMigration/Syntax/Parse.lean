import SpaMigration.Syntax.Grammar.Expression
import SpaMigration.Syntax.Grammar.Module

/-!
# Parsing programs

Closes the recursion of the grammar and parses whole programs, item after item. Every construct takes at
least one character or is a step down a ladder of fewer than sixteen goals, so sixteen times the length of the
text bounds the depth. As offsets are numbers of 32 bits, all texts within their reach are given the same depth.

A byte-order mark in front of the text and a first line starting with `#!` are no part of the program, and
offsets count from behind the mark.
-/
namespace SpaMigration.Syntax

open TokenReader

/-- The grammar unrolled to a depth. -/
def parseAt : Nat → Goal → Context → TokenReader Node
  | 0, _, _ => failure
  | fuel + 1, goal, ctx =>
    let g : Grammar := ⟨fuel, parseAt fuel⟩
    match goal with
    | .expression => sequence g ctx
    | .assignment => assignment g ctx
    | .leftHandSide => leftHandSide g ctx
    | .construction => construction g ctx
    | .statement => statement g ctx
    | .moduleItem => moduleItem g ctx
    | .binding => binding g ctx
    | .type => type g ctx
    | .plainType => plainType g ctx
    | .markup => markup g ctx

/-- The text behind a byte-order mark. -/
def dropMark : List Char → List Char
  | '\uFEFF' :: rest => rest
  | text => text

/-- The place behind a first line that names an interpreter. -/
def skipInterpreterLine : List Char → Token.Place
  | '#' :: '!' :: rest =>
    let line := rest.takeWhile fun c => !Text.isLineTerminator c
    (rest.drop line.length, 2 + Text.byteSize line)
  | text => (text, 0)

/-- How deep the grammar is unrolled for a text. -/
def depthFor (text : List Char) : Nat := 16 * max (text.length + 1) UInt32.size

/-- The item that a text starts with, and the number of characters it takes. It is read by itself, as if it
were the first of a program. -/
def item? (dialect : Dialect) (text : List Char) : Option (Node × Nat) := do
  let (item, state) ← (parseAt (depthFor text) .moduleItem { dialect }).run (.after (text, 0))
  return (item, text.length - state.last.1.length)

/-- The items from a place on up to the end of the text; nothing when there are more than `most`. -/
def itemsFrom (dialect : Dialect) : Nat → Token.Place → Option (List Node)
  | most, place => do
    let ((text, offset), _) ← Token.skipGap .code place.1 place.2 false
    if text.isEmpty then return []
    else
      match most with
      | 0 => failure
      | most + 1 =>
        let (item, count) ← item? dialect text
        let behind := (text.drop count, offset + Text.byteSize (text.take count))
        return item.shift offset :: (← itemsFrom dialect most behind)

/-- What parsing leaves to be checked on the finished tree: every node covers whole characters of the
text, and in the plain language no default value stands outside patterns. -/
def isSound (dialect : Dialect) (text : List Char) (items : List Node) : Bool :=
  (Node.nodesOf items).all fun node =>
    node.span.fits text && (dialect.typed || match node.kind with
      | .defaultProperty _ => false
      | _ => true)

/-- The items of a program, or nothing when the text is no program of the dialect. Every item takes at least
one character. -/
def parse? (dialect : Dialect) (source : List Char) : Option (List Node) := do
  let text := dropMark source
  let items ← itemsFrom dialect text.length (skipInterpreterLine text)
  if isSound dialect text items then some items else none

end SpaMigration.Syntax
