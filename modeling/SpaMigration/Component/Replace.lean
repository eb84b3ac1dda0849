import SpaMigration.Component.LazyCall
import SpaMigration.Component.TagTable

/-!
# Replacing components

A component is replaced where its module is imported by its default: the elements of the bound name are
renamed and their attributes changed, or, for the component that loads others, its calls are replaced.
That import goes, and the imports of the replacement are handed to the caller.
-/
namespace SpaMigration

namespace LegacyComponent

/-- The module is imported by its default: the source and that import. The outer option is `none` when
that import is cut inside a character, the inner one when there is none. -/
def findImport? (component : LegacyComponent) (text : List Char) :
    Option (Option (Source × DefaultImport)) :=
  if Text.occursIn component.modulePath.toList text then
    match Source.parse? text with
    | some source =>
      match source.defaultDeclaration? component.modulePath with
      | some (declaration, name) =>
        (source.importOf? component.modulePath declaration name).map fun found => some (source, found)
      | none => some none
    | none => some none
  else some none

/-- The element that replaces the component's elements. -/
def replacementName : LegacyComponent → String
  | .image => "Image"
  | .link => "Link"
  | .head => "Helmet"
  | .script => "script"
  | .dynamic => "lazy"

/-- The change of the attributes of the component's elements. -/
def tagChange : LegacyComponent → TagChange
  | .image => TagChange.image
  | .link => TagChange.link
  | .script => TagChange.script
  | .head | .dynamic => TagChange.keep

/-- The imports that the replacement needs. -/
def replacementImports (component : LegacyComponent) (options : ReplacementOptions) : List String :=
  match component with
  | .image => ["import \x7b Image \x7d from '" ++ options.imagePackage ++ "';"]
  | .link => ["import \x7b Link \x7d from 'react-router-dom';"]
  | .head => ["import \x7b Helmet \x7d from 'react-helmet-async';"]
  | .script => []
  | .dynamic => ["import \x7b lazy, Suspense \x7d from 'react';"]

/-- Replaces the elements of the name that an import binds. -/
def replaceElements? (component : LegacyComponent) (options : ReplacementOptions) (source : Source)
    (imported : DefaultImport) : Option ReplacedText := do
  let elements ← source.elements? imported.boundName
  let (edits, warnings) := renameElements elements component.replacementName component.tagChange
  let warnings := if component == .head && !elements.isEmpty then
      ["Helmet requires the app root to be wrapped in <HelmetProvider>"]
    else warnings
  imported.finish? source.text edits true (component.replacementImports options) warnings

/-- Replaces the calls of the name that an import binds; the import stays if a call has to stay. -/
def replaceCalls? (options : ReplacementOptions) (source : Source) (imported : DefaultImport) :
    Option ReplacedText := do
  let calls ← LazyCall.findAll? source imported.boundName
  let replaced := calls.map (·.replacement imported.boundName options)
  imported.finish? source.text (replaced.filterMap (·.1)) (calls.all (·.loader.isSome))
    (dynamic.replacementImports options) (replaced.flatMap (·.2))

/-- Replaces a component in a text; `none` when an edit would cut through a character, which only happens
behind a byte-order mark. -/
def replace? (component : LegacyComponent) (options : ReplacementOptions) (text : List Char) :
    Option ReplacedText := do
  match ← component.findImport? text with
  | some (source, imported) =>
    match component with
    | .dynamic => replaceCalls? options source imported
    | _ => replaceElements? component options source imported
  | none => return .unchanged text

end LegacyComponent

namespace ReplacedText

/-- Replaces the component with a short name; an unknown one is only warned of. -/
def ofTag? (tag : String) (options : ReplacementOptions) (text : List Char) : Option ReplacedText :=
  match LegacyComponent.ofTag? tag with
  | some component => component.replace? options text
  | none => some ⟨text, [], ["Unknown component type: " ++ tag]⟩

end ReplacedText

end SpaMigration
