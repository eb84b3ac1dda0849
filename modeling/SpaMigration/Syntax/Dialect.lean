import SpaMigration.ProjectPath

/-!
# Dialects

The language a source is written in: whether it has types, whether it has markup, and the few rules
that differ between the typed and the plain language.
-/
namespace SpaMigration.Syntax

/-- What a source may contain. -/
structure Dialect where
  /-- Type annotations, decorators and the other forms of the typed language. -/
  typed : Bool
  /-- Markup in expressions. -/
  markup : Bool
  deriving DecidableEq, Repr

namespace Dialect

/-- Types and markup. -/
def typedMarkup : Dialect := ⟨true, true⟩

/-- Types without markup. -/
def typedScript : Dialect := ⟨true, false⟩

/-- Markup without types. -/
def plain : Dialect := ⟨false, true⟩

/-- The dialect that the extension of a file announces. -/
def ofPath (path : String) : Dialect :=
  match ProjectPath.extension? path with
  | some "ts" | some "mts" | some "cts" => typedScript
  | some "tsx" => typedMarkup
  | _ => plain

end Dialect

end SpaMigration.Syntax
