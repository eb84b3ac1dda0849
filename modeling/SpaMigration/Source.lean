import SpaMigration.Syntax.Parse

/-!
# Parsed sources

A source is a text together with the program it was parsed into, with types and markup. Where the text
starts with a byte-order mark, the offsets of the program count from behind the mark, while the text keeps
it: what `textAt?` finds then stands three bytes early, and may be cut inside a character.
-/
namespace SpaMigration

open Syntax

/-- A text and the items of its program. -/
structure Source where
  text : List Char
  items : List Node

namespace Source

/-- The source of a text, unless it is no program. -/
def parse? (text : List Char) : Option Source :=
  (Syntax.parse? .typedMarkup text).map (⟨text, ·⟩)

/-- Every node of the program in the order of a traversal. -/
def nodes (source : Source) : List Node := Node.nodesOf source.items

/-- The bytes of the text at a span; `none` when that cuts through a character. -/
def textAt? (source : Source) (span : Span) : Option (List Char) :=
  Text.slice? source.text span.lo span.hi

/-- A string as it is written, without its quotes. -/
def quoted (source : Source) (string : Node) : String :=
  let inner := Text.slice? (dropMark source.text) (string.span.lo + 1) (string.span.hi - 1)
  String.ofList (inner.getD [])

/-- The name of a key that is written as a name or a string. -/
def keyName? (source : Source) (key : Node) : Option String :=
  match key.kind with
  | .nameKey name => some name
  | .stringLiteral => some (source.quoted key)
  | _ => none

/-- The source that an import declaration names, when the node is one. -/
def importedModule? (source : Source) (node : Node) : Option String :=
  match node.kind with
  | .importDeclaration _ => (node.parts.find? (·.kind == .stringLiteral)).map source.quoted
  | _ => none

end Source

end SpaMigration
