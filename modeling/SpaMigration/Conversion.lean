import SpaMigration.Loading
import SpaMigration.Migration.Run
import SpaMigration.Output

/-!
# Converting a project on a disk

Loads a project, runs the migration on it and writes the result. Nothing is written unless the project can
be loaded.
-/
namespace SpaMigration

/-- Why a project could not be converted. -/
inductive ConversionError where
  | load (cause : LoadError)
  | write (cause : WriteError)
  deriving DecidableEq, Repr

namespace ConversionError

/-- The error for the reader. -/
def message : ConversionError → String
  | .load cause => cause.message
  | .write cause => cause.message

end ConversionError

namespace Conversion

/-- Converts the project at `input` into the directory `output`; the disk as it is left, and the result. -/
def run (disk : Disk) (input output : String) (options : Options) :
    Disk × Except ConversionError MigrationResult :=
  match LoadedProject.load disk input with
  | .error e => (disk, .error (.load e))
  | .ok loaded =>
    let (result, _) := Migration.run
      { project := loaded.project, manifest := loaded.manifest, options }
    match Output.write disk loaded.project result output with
    | (disk, none) => (disk, .ok result)
    | (disk, some e) => (disk, .error (.write e))

/-- A project that cannot be loaded leaves the disk as it was. -/
theorem run_of_load_error {disk : Disk} {input : String} {e : LoadError}
    (h : LoadedProject.load disk input = .error e) (output : String) (options : Options) :
    run disk input output options = (disk, .error (.load e)) := by
  simp only [run, h]

end Conversion

end SpaMigration
