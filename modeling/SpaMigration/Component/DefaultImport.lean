import SpaMigration.Component.Basic
import SpaMigration.Edit
import SpaMigration.Source

/-!
# Default imports and their removal

A module of the framework is imported by its default. Removing the import takes its whole line, unless
something else stands on it, and keeps the names that the same declaration imports besides.
-/
namespace SpaMigration

open Syntax

/-- An import of a module by its default. -/
structure DefaultImport where
  modulePath : String
  /-- The name it is bound to. -/
  boundName : String
  /-- The statement for the other names of the same declaration. -/
  kept : Option String
  /-- Removes the import, or puts what is kept in its place. -/
  removal : Edit
  deriving DecidableEq, Repr

/-- A blank inside a line. -/
def isLineBlank (c : Char) : Bool := c == ' ' || c == '\t'

/-- The size of the line end at the start of a text; the end of the text is one of no size. -/
def lineEnd? : List Char → Option Nat
  | [] => some 0
  | '\n' :: _ => some 1
  | '\r' :: '\n' :: _ => some 2
  | _ => none

/-- A span widened to its whole line, when only blanks share the line with it. -/
def wholeLine (text : List Char) (span : Span) : Span :=
  match Text.splitAtByte? span.lo text, Text.splitAtByte? span.hi text with
  | some (before, _), some (_, after) =>
    let line := before.reverse.takeWhile isLineBlank
    let above := before.reverse.dropWhile isLineBlank
    let behind := after.takeWhile isLineBlank
    match above.head?.all (· == '\n'), lineEnd? (after.dropWhile isLineBlank) with
    | true, some size => ⟨span.lo - line.length, span.hi + behind.length + size⟩
    | _, _ => span
  | _, _ => span

namespace Source

/-- The name that a declaration binds to the default of its module. -/
def defaultName? (declaration : Node) : Option String :=
  declaration.parts.findSome? fun part =>
    match part.kind with
    | .importDefault name => some name
    | _ => none

/-- The statement that imports what a declaration imports besides the default. -/
def keptImport? (source : Source) (declaration : Node) (modulePath : String) :
    Option (Option String) := do
  let namespaces ← (declaration.parts.filter fun part =>
    match part.kind with
    | .importNamespace _ => true
    | _ => false).mapM fun part => source.textAt? part.span
  let named ← (declaration.parts.filter fun part =>
    match part.kind with
    | .importNamed _ => true
    | _ => false).mapM fun part => source.textAt? part.span
  let keyword := if declaration.kind == .importDeclaration true then "import type " else "import "
  let ending := " from '" ++ modulePath ++ "';"
  match namespaces.getLast?, named with
  | some found, _ => return some (keyword ++ String.ofList found ++ ending)
  | none, [] => return none
  | none, _ =>
    let list := String.ofList (Text.joinWith [',', ' '] named)
    return some (keyword ++ "\x7b " ++ list ++ " \x7d" ++ ending)

/-- The first declaration among the items that imports the default of a module, with the name it binds. -/
def defaultDeclaration? (source : Source) (modulePath : String) : Option (Node × String) :=
  source.items.findSome? fun item =>
    if source.importedModule? item == some modulePath then (defaultName? item).map (item, ·) else none

/-- A declaration that imports the default of a module, with what removes it. -/
def importOf? (source : Source) (modulePath : String) (declaration : Node) (boundName : String) :
    Option DefaultImport := do
  let kept ← source.keptImport? declaration modulePath
  let span := declaration.span
  let removal : Edit := match kept with
    | some statement => ⟨span.lo, span.hi, statement.toList⟩
    | none =>
      let line := wholeLine source.text span
      ⟨line.lo, line.hi, []⟩
  return { modulePath, boundName, kept, removal }

end Source

namespace DefaultImport

/-- What is told about an import of which a part is kept. -/
def keptWarning (imported : DefaultImport) : List String :=
  match imported.kept with
  | some kept =>
    ["Kept \x60" ++ kept ++ "\x60; these names still come from " ++ imported.modulePath
      ++ " and need replacing by hand"]
  | none => []

/-- The text after the edits and, if asked for, without the import. Each warning is given once. -/
def finish? (imported : DefaultImport) (text : List Char) (edits : List Edit) (removeImport : Bool)
    (imports warnings : List String) : Option ReplacedText := do
  let edits := if removeImport then edits ++ [imported.removal] else edits
  let warnings := if removeImport then warnings ++ imported.keptWarning else warnings
  return { code := ← Edit.applyAll? text edits, imports, warnings := Text.dedup warnings }

end DefaultImport

end SpaMigration
