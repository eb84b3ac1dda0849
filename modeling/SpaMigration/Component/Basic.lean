/-!
# Legacy components

The framework's components that are replaced by others, the modules they come from, and what a
replacement yields.
-/
namespace SpaMigration

/-- A component of the framework with a replacement of its own. -/
inductive LegacyComponent where
  | image
  | link
  | head
  | script
  | dynamic
  deriving DecidableEq, Repr

namespace LegacyComponent

/-- All components, in the order in which they are replaced. -/
def all : List LegacyComponent := [image, link, head, script, dynamic]

/-- The short name of a component. -/
def tag : LegacyComponent → String
  | .image => "image"
  | .link => "link"
  | .head => "head"
  | .script => "script"
  | .dynamic => "dynamic"

/-- The component with a short name, in letters of either case. -/
def ofTag? (tag : String) : Option LegacyComponent :=
  all.find? fun component => component.tag.toList == tag.toList.map Char.toLower

/-- What the modules of the framework start with. -/
def framework : String := "next/"

/-- The module the component is imported from. -/
def modulePath (component : LegacyComponent) : String := framework ++ component.tag

/-- Names under which the component is usually bound. -/
def aliases : LegacyComponent → List String
  | .image => ["Image", "NextImage", "LegacyImage"]
  | .link => ["Link", "NextLink"]
  | .head => ["Head", "NextHead"]
  | .script => ["Script", "NextScript"]
  | .dynamic => ["dynamic"]

end LegacyComponent

/-- What replacements are made of. -/
structure ReplacementOptions where
  /-- The package of the image component. -/
  imagePackage : String := "@unpic/react"
  /-- What is shown while a component loads. -/
  lazyFallback : String := "null"
  deriving Repr

/-- A text after a replacement, the imports it needs now, and what is left to do by hand. -/
structure ReplacedText where
  code : List Char
  imports : List String
  warnings : List String
  deriving DecidableEq, Repr

namespace ReplacedText

/-- Nothing was replaced. -/
def unchanged (code : List Char) : ReplacedText := ⟨code, [], []⟩

end ReplacedText

/-- A component that was replaced in a file, and how often it was used there. -/
structure ComponentReplacement where
  file : String
  component : LegacyComponent
  count : Nat
  deriving DecidableEq, Repr

end SpaMigration
