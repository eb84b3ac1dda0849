import SpaMigration.Component.Basic
import SpaMigration.Source
import SpaMigration.Text.Uppercase

/-!
# The component of a file

A file's component is the first declaration in it that looks like one: a function or a variable bound to a
function with a capital first letter, or a class that extends the base class of components.
-/
namespace SpaMigration

open Syntax

/-- How a component is written. -/
inductive ComponentKind where
  | functional
  | classBased
  deriving DecidableEq, Repr

/-- A declaration that looks like a component. -/
structure Candidate where
  name : String
  kind : ComponentKind
  /-- The names of the properties it takes. -/
  props : List String
  deriving DecidableEq, Repr

namespace Candidate

/-- The name starts with a capital letter. -/
def isComponentName (name : String) : Bool := name.toList.head?.any Text.isUppercase

/-- The name of one property in an object pattern. -/
def propName? (source : Source) (item : Node) : Option String :=
  match item.kind, item.parts with
  | .propertyPattern, key :: _ => source.keyName? key
  | .shorthandPattern name, _ => some name
  | .restPattern, inner :: _ =>
    match inner.kind with
    | .namePattern name => some ("..." ++ name)
    | _ => none
  | _, _ => none

/-- The properties that a parameter names: itself, or what it takes apart. -/
def propsOf (source : Source) (param : Node) : List String :=
  match param.kind with
  | .namePattern name => [name]
  | .objectPattern => param.parts.filterMap (propName? source)
  | _ => []

/-- The pattern of the first parameter of a function. -/
def firstParameter? (function : Node) : Option Node := do
  let first ← function.parts.head?
  match first.kind with
  | .parameter => first.parts.getLast?
  | _ => none

/-- A function as a candidate, if its name allows it. -/
def ofFunction? (source : Source) (name : String) (function : Node) : Option Candidate :=
  if isComponentName name then
    some ⟨name, .functional, ((firstParameter? function).map (propsOf source)).getD []⟩
  else none

/-- The expression names the base class of components. -/
def isBaseClass (base : Node) : Bool :=
  match base.kind, base.parts with
  | .identifier name, _ => name == "Component"
  | .member, [whole, part] => whole.kind == .identifier "React" && part.kind == .nameKey "Component"
  | _, _ => false

/-- A class as a candidate, if it extends the base class. -/
def ofClass? (name : String) (declared : Node) : Option Candidate :=
  match declared.parts.find? (·.kind == .heritage) with
  | some heritage => if heritage.parts.head?.any isBaseClass then some ⟨name, .classBased, []⟩ else none
  | none => none

/-- The candidate that a node declares, if it declares one. -/
def ofNode? (source : Source) (node : Node) : Option Candidate :=
  match node.kind, node.parts with
  | .functionDeclaration name, _ => ofFunction? source name node
  | .declarator, [pattern, value] =>
    match pattern.kind, value.kind with
    | .namePattern name, .arrow | .namePattern name, .functionExpression _ =>
      ofFunction? source name value
    | _, _ => none
  | .classDeclaration name, _ => ofClass? name node
  | .exportDefault, [value] =>
    match value.kind with
    | .functionExpression (some name) => ofFunction? source name value
    | .classExpression (some name) => ofClass? name value
    | _ => none
  | _, _ => none

mutual

/-- A walk over a tree, each node before its parts. Every node is looked at, but what was found before it
stands. -/
def walk (source : Source) (found : Option Candidate) : Node → Option Candidate
  | .mk kind span parts => walkAll source (found.or (ofNode? source (.mk kind span parts))) parts

/-- A walk over several trees one after another. -/
def walkAll (source : Source) (found : Option Candidate) : List Node → Option Candidate
  | [] => found
  | node :: rest => walkAll source (walk source found node) rest

end

end Candidate

/-- What is known of the component of a file. -/
structure ComponentSummary where
  name : String
  kind : ComponentKind
  /-- The modules the file imports. -/
  imports : List String
  /-- Those of them that belong to the framework. -/
  legacyImports : List String
  props : List String
  deriving DecidableEq, Repr

namespace ComponentSummary

/-- The modules a source imports, in order. -/
def importsOf (source : Source) : List String := source.nodes.filterMap source.importedModule?

/-- The summary of a source, if it declares a component. -/
def ofSource? (source : Source) : Option ComponentSummary :=
  (Candidate.walkAll source none source.items).map fun candidate =>
    let imports := importsOf source
    { name := candidate.name
      kind := candidate.kind
      imports
      legacyImports := imports.filter fun path =>
        Text.startsWith path.toList LegacyComponent.framework.toList
      props := candidate.props }

/-- The summary of a text; `none` when it is no program or declares no component. -/
def ofText? (text : List Char) : Option ComponentSummary := (Source.parse? text).bind ofSource?

end ComponentSummary

end SpaMigration
