import SpaMigration.Text.Basic

/-!
# Syntax trees

A program is a tree of nodes. Each node has a kind, the stretch of the text it covers in bytes, and its
parts in the order in which a traversal visits them. That order is the order of the text with three
exceptions: a `do` loop has its condition before its body, a class has its decorators, then its members,
then the class it extends, and a function has its parameters and its body before its types.

Infix operators of every precedence form one node over all their operands, as a traversal meets these
from left to right in any case.
-/
namespace SpaMigration.Syntax

/-- A stretch of text, in bytes from its start. -/
structure Span where
  lo : Nat
  hi : Nat
  deriving DecidableEq, Repr, Inhabited

/-- What a node is. -/
inductive Kind where
  /-- `import ... from "source"`: the specifiers, then the source. -/
  | importDeclaration (typeOnly : Bool)
  | importDefault (name : String)
  | importNamed (name : String)
  | importNamespace (name : String)
  /-- `export default` of a function, a class or an interface. -/
  | exportDefault
  /-- Any other export, and the aliases of imports. -/
  | moduleItem
  /-- A function declaration: its parameters, then its body and types. -/
  | functionDeclaration (name : String)
  | functionExpression (name : Option String)
  | arrow
  /-- A class declaration: decorators, members, heritage, types. -/
  | classDeclaration (name : String)
  | classExpression (name : Option String)
  | classMember
  | constructor
  /-- The class that a class extends. -/
  | heritage
  | decorator
  /-- One parameter: decorators, then its pattern. -/
  | parameter
  | variableDeclaration
  /-- A pattern and possibly the value it is bound to. -/
  | declarator
  | namePattern (name : String)
  | objectPattern
  /-- `key: pattern` in an object pattern. -/
  | propertyPattern
  /-- `name` or `name = value` in an object pattern. -/
  | shorthandPattern (name : String)
  | restPattern
  | arrayPattern
  | defaultPattern
  | identifier (name : String)
  | stringLiteral
  | literal
  | template
  | array
  | object
  /-- `key: value` in an object. -/
  | property
  /-- `name` in an object. -/
  | shorthandProperty (name : String)
  /-- A method of an object: its key, then the function. -/
  | methodProperty
  | accessorProperty
  /-- `name = value` in what looks like an object, which only a pattern may hold. -/
  | defaultProperty (name : String)
  | spread
  /-- A key that is a plain name. -/
  | nameKey (name : String)
  | computedKey
  | parenthesized
  /-- A call: what is called, then the arguments and types. -/
  | call
  | optionalCall
  | argument (spread : Bool)
  | construction
  /-- Access to a part: the whole, then the name or key. -/
  | member
  /-- Access to a part of what may be missing. -/
  | optionalMember
  /-- Operands of prefix, postfix and infix operators. -/
  | operation
  /-- An operand with a type attached. -/
  | cast
  | assignment
  | conditional
  | sequence
  /-- An element: its opening tag, its children, its closing tag. -/
  | element
  | fragment
  /-- An opening tag: its name, its attributes, its types. -/
  | openingTag (selfClosing : Bool)
  | closingTag
  | tagName (name : String)
  | qualifiedTagName
  /-- An attribute: its name and possibly its value. -/
  | tagAttribute
  | attributeName
  /-- `{...value}` in a tag, covering the dots and the value but not the braces. -/
  | attributeSpread
  | markupText
  | markupContainer
  | block
  | statement
  | typeDeclaration
  | typeExpression
  deriving DecidableEq, Repr, Inhabited

/-- A node of a syntax tree. -/
inductive Node where
  | mk (kind : Kind) (span : Span) (parts : List Node)
  deriving Repr, Inhabited

namespace Node

/-- What the node is. -/
def kind : Node → Kind
  | .mk kind _ _ => kind

/-- The text the node covers. -/
def span : Node → Span
  | .mk _ span _ => span

/-- The parts of the node, in the order of a traversal. -/
def parts : Node → List Node
  | .mk _ _ parts => parts

mutual

/-- The node and everything below it, each node before its parts. -/
def nodes : Node → List Node
  | .mk kind span parts => .mk kind span parts :: nodesOf parts

/-- The nodes of several trees one after another. -/
def nodesOf : List Node → List Node
  | [] => []
  | node :: rest => node.nodes ++ nodesOf rest

/-- The tree of the same text at another place, by a number of bytes behind. -/
def shift (bytes : Nat) : Node → Node
  | .mk kind span parts => .mk kind ⟨bytes + span.lo, bytes + span.hi⟩ (shiftAll bytes parts)

/-- Several trees, each of them shifted. -/
def shiftAll (bytes : Nat) : List Node → List Node
  | [] => []
  | node :: rest => node.shift bytes :: shiftAll bytes rest

end

end Node

/-- The ends of a span are offsets of characters of the text, in order. -/
def Span.fits (span : Span) (text : List Char) : Bool := (Text.slice? text span.lo span.hi).isSome

end SpaMigration.Syntax
