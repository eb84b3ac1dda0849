import SpaMigration.Edit
import SpaMigration.Source

/-!
# Tags in markup

An opening tag with its attributes as they are written. Renaming an element renders its opening tag anew
and replaces its closing tag.
-/
namespace SpaMigration

open Syntax

/-- An attribute as written: the value with its quotes or braces, and none for a bare flag. A spread is an
attribute whose name is all of it, braces included. -/
structure TagAttribute where
  name : String
  value : Option String := none
  deriving DecidableEq, Repr

namespace TagAttribute

/-- The attribute spreads a value. -/
def isSpread (a : TagAttribute) : Bool := a.name.toList.head? == some '\x7b'

/-- The text between two quotes of one kind. -/
def unquote? : List Char → Option (List Char)
  | [] => none
  | q :: rest =>
    if (q == '"' || q == '\'') && rest.getLast? == some q then some rest.dropLast else none

/-- The text of a value that is a string in quotes. -/
def string? (a : TagAttribute) : Option String :=
  a.value.bind fun value => (unquote? value.toList).map String.ofList

/-- The attribute is a bare flag, or is set to true. -/
def isTruthyFlag (a : TagAttribute) : Bool :=
  match a.value with
  | none => true
  | some value => value == "\x7btrue\x7d"

/-- The attribute as it stands in a tag. -/
def render (a : TagAttribute) : String :=
  match a.value with
  | some value => a.name ++ "=" ++ value
  | none => a.name

end TagAttribute

/-- The attributes of a tag in order. -/
abbrev Attributes := List TagAttribute

namespace Attributes

/-- The first attribute with a name. -/
def get? (attributes : Attributes) (name : String) : Option TagAttribute :=
  attributes.find? (·.name == name)

/-- There is an attribute with this name. -/
def has (attributes : Attributes) (name : String) : Bool := (get? attributes name).isSome

/-- The attributes without the first one of a name. -/
def erase (attributes : Attributes) (name : String) : Attributes :=
  attributes.eraseP (·.name == name)

end Attributes

/-- An opening tag and the bytes it covers. -/
structure OpeningTag where
  span : Span
  attributes : Attributes
  selfClosing : Bool
  deriving DecidableEq, Repr

namespace OpeningTag

/-- The tag under a name. -/
def render (tag : OpeningTag) (name : String) : String :=
  "<" ++ name ++ String.join (tag.attributes.map fun a => " " ++ a.render)
    ++ (if tag.selfClosing then " />" else ">")

end OpeningTag

/-- An element: its opening tag and the span of its closing tag, if it has one. -/
structure TaggedElement where
  opening : OpeningTag
  closing : Option Span
  deriving DecidableEq, Repr

namespace Source

/-- A spread with its braces, which its node leaves out: from the last opening brace in front of it to the
first closing brace behind it. -/
def spreadText? (source : Source) (span : Span) : Option (List Char) := do
  let (before, _) ← Text.splitAtByte? span.lo source.text
  let inner ← source.textAt? span
  let (_, after) ← Text.splitAtByte? span.hi source.text
  let start := match Text.splitLast? '\x7b' before with
    | some (_, tail) => '\x7b' :: tail
    | none => []
  let ending := match after.dropWhile (· != '\x7d') with
    | [] => []
    | _ => after.takeWhile (· != '\x7d') ++ ['\x7d']
  return start ++ inner ++ ending

/-- One attribute of a tag, as it is written. -/
def attribute? (source : Source) (node : Node) : Option TagAttribute :=
  match node.kind, node.parts with
  | .tagAttribute, [name] => do return ⟨String.ofList (← source.textAt? name.span), none⟩
  | .tagAttribute, name :: value :: _ => do
    return ⟨String.ofList (← source.textAt? name.span), some (String.ofList (← source.textAt? value.span))⟩
  | _, _ => do return ⟨String.ofList (← source.spreadText? node.span), none⟩

/-- The node is an attribute or a spread of a tag. -/
def isAttribute (node : Node) : Bool := node.kind == .tagAttribute || node.kind == .attributeSpread

/-- The opening tag of a node that is an element of this name. -/
def openingOf? (name : String) (element : Node) : Option Node :=
  match element.kind, element.parts with
  | .element, opening :: _ =>
    if (opening.parts.head?.map Node.kind) == some (.tagName name) then some opening else none
  | _, _ => none

/-- The tags of an element whose opening tag is known. -/
def taggedElement? (source : Source) (element opening : Node) : Option TaggedElement := do
  let attributes ← (opening.parts.filter isAttribute).mapM source.attribute?
  return { opening :=
             { span := opening.span
               attributes
               selfClosing := opening.kind == .openingTag true }
           closing := (element.parts.find? (·.kind == .closingTag)).map Node.span }

/-- The elements of a name in the order of a traversal; `none` when an attribute is cut inside a
character. -/
def elements? (source : Source) (name : String) : Option (List TaggedElement) :=
  (source.nodes.filterMap fun node => (openingOf? name node).map (node, ·)).mapM fun (node, opening) =>
    source.taggedElement? node opening

end Source

/-- A change of a tag's attributes and the warnings that go with it. -/
abbrev TagChange := Attributes → Attributes × List String

namespace TagChange

/-- Leaves the attributes as they are. -/
def keep : TagChange := fun attributes => (attributes, [])

/-- Changes one after another, with all their warnings. -/
def sequence : List TagChange → TagChange
  | [] => keep
  | change :: rest => fun attributes =>
    let (attributes, first) := change attributes
    let (attributes, others) := sequence rest attributes
    (attributes, first ++ others)

end TagChange

/-- The edits that rename elements and change their attributes, and the warnings of the changes: the
opening tags first, then the closing ones. -/
def renameElements (elements : List TaggedElement) (name : String) (change : TagChange) :
    List Edit × List String :=
  let changed := elements.map fun element =>
    let (attributes, warnings) := change element.opening.attributes
    (({ element.opening with attributes } : OpeningTag), warnings)
  let openings := changed.map fun (tag, _) =>
    ({ lo := tag.span.lo, hi := tag.span.hi, text := (tag.render name).toList } : Edit)
  let closings := elements.filterMap fun element => element.closing.map fun span =>
    ({ lo := span.lo, hi := span.hi, text := ("</" ++ name ++ ">").toList } : Edit)
  (openings ++ closings, changed.flatMap (·.2))

end SpaMigration
