/-!
# Changes of dependencies

What happens to a package in a manifest.
-/
namespace SpaMigration

/-- What happens to a package. -/
inductive DependencyAction where
  | add
  | remove
  | update
  deriving DecidableEq, Repr

namespace DependencyAction

/-- The action as it heads a line about a change. -/
def title : DependencyAction → String
  | .add => "Add"
  | .remove => "Remove"
  | .update => "Update"

end DependencyAction

/-- A package that is added, removed or updated. -/
structure DependencyChange where
  name : String
  action : DependencyAction
  fromVersion : Option String := none
  toVersion : Option String := none
  /-- The package is needed for development only. -/
  dev : Bool
  deriving DecidableEq, Repr

namespace DependencyChange

/-- The change on one line. -/
def describe (change : DependencyChange) : String := change.action.title ++ " " ++ change.name

/-- The package as it is asked for when installing. -/
def specifier (change : DependencyChange) : String :=
  match change.action, change.toVersion with
  | .remove, _ | _, none => change.name
  | _, some version => change.name ++ "@" ++ version

end DependencyChange

end SpaMigration
