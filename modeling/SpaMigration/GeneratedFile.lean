/-!
# Files a run writes

A run creates files of its own and changes files of the project.
-/
namespace SpaMigration

/-- A file that the run creates. -/
structure GeneratedFile where
  path : String
  content : String
  purpose : String
  deriving DecidableEq, Repr

/-- The final text of a project file that the run changed, and what was done to it. -/
structure ModifiedFile where
  path : String
  content : String
  changes : List String
  deriving DecidableEq, Repr

end SpaMigration
