import SpaMigration.Dependency.Change
import SpaMigration.Diagnostic
import SpaMigration.GeneratedFile
import SpaMigration.Number.Share
import SpaMigration.Route.Basic

/-!
# The result of a migration

What a run found, changed and made, with the messages for the reader.
-/
namespace SpaMigration

/-- Figures about a run. -/
structure MigrationStats where
  totalFiles : Nat
  modifiedFiles : Nat := 0
  /-- The share of the files that were changed. -/
  rate : Share := .nothing
  dependencyChanges : Nat := 0
  routeChanges : Nat := 0
  deriving DecidableEq, Repr

/-- What a run yields. -/
structure MigrationResult where
  success : Bool := false
  errors : List String := []
  warnings : List String := []
  info : List String := []
  routes : List Route := []
  dependencies : List DependencyChange := []
  transformedFiles : List String := []
  stats : MigrationStats
  modifiedFiles : List ModifiedFile := []
  newFiles : List GeneratedFile := []

namespace MigrationResult

/-- The result of a run that has not done anything yet. -/
def start (totalFiles : Nat) : MigrationResult := { stats := { totalFiles } }

/-- The records of a run as messages; the run succeeded if none of them is an error. -/
def absorb (result : MigrationResult) (records : List Diagnostic) : MigrationResult :=
  let errors := result.errors ++ Diagnostic.reports .critical records
  { result with
    errors
    warnings := result.warnings ++ Diagnostic.reports .warning records
    info := result.info ++ Diagnostic.reports .info records
    success := errors.isEmpty }

/-- The final text of a file, if the run changed it. -/
def modifiedContent? (result : MigrationResult) (path : String) : Option String :=
  (result.modifiedFiles.find? (·.path == path)).map (·.content)

end MigrationResult

end SpaMigration
