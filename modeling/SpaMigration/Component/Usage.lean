import SpaMigration.Component.Basic
import SpaMigration.Source

/-!
# Uses of a component

A file uses a component of the framework when it imports its module. The uses that are counted are
elements named by an alias of the component or by a name bound in such an import; a component that is
called counts its calls as well.
-/
namespace SpaMigration

open Syntax

/-- How a file uses one component. -/
structure ComponentUsage where
  used : Bool
  count : Nat
  imports : List String
  deriving DecidableEq, Repr

namespace ComponentUsage

/-- No use at all. -/
def unused : ComponentUsage := ⟨false, 0, []⟩

/-- The name that a specifier of an import binds. -/
def boundName? (specifier : Node) : Option String :=
  match specifier.kind with
  | .importDefault name | .importNamed name | .importNamespace name => some name
  | _ => none

/-- The name of the element that an opening tag starts, when it is a single name. -/
def elementName? (node : Node) : Option String :=
  match node.kind, node.parts with
  | .openingTag _, name :: _ =>
    match name.kind with
    | .tagName name => some name
    | _ => none
  | _, _ => none

/-- The name that a call calls, when it is a single name. -/
def calledName? (node : Node) : Option String :=
  match node.kind, node.parts with
  | .call, callee :: _ =>
    match callee.kind with
    | .identifier name => some name
    | _ => none
  | _, _ => none

/-- The node is a use of the component under one of the names. -/
def isUse (component : LegacyComponent) (names : List String) (node : Node) : Bool :=
  (elementName? node).any names.contains ||
    (component == .dynamic && (calledName? node).any names.contains)

/-- The use of a component in a source. -/
def ofSource (component : LegacyComponent) (source : Source) : ComponentUsage :=
  let declarations := source.nodes.filter fun node =>
    source.importedModule? node == some component.modulePath
  if declarations.isEmpty then unused
  else
    let bound := declarations.flatMap fun node => node.parts.filterMap boundName?
    let names := component.aliases ++ bound
    { used := true
      count := source.nodes.countP (isUse component names)
      imports := declarations.map fun _ => component.modulePath }

/-- The use of a component in a text. A text that does not mention the module is not even parsed, and one
that is no program uses nothing. -/
def ofText (component : LegacyComponent) (text : List Char) : ComponentUsage :=
  if Text.occursIn component.modulePath.toList text then
    ((Source.parse? text).map (ofSource component)).getD unused
  else unused

/-- The use of the component with a short name; an unknown one is not used. -/
def ofTag (tag : String) (text : List Char) : ComponentUsage :=
  match LegacyComponent.ofTag? tag with
  | some component => ofText component text
  | none => unused

end ComponentUsage

end SpaMigration
