import SpaMigration.Disk.Basic
import SpaMigration.Migration.Result
import SpaMigration.Project

/-!
# Writing the result of a run

Every file of the project is written below the output directory, with its new text where the run changed
it, then the other files that the run made. Writing stops at the first failure; what was written before
stays on the disk.
-/
namespace SpaMigration

/-- Why an output could not be written. -/
inductive WriteError where
  | outputDirectory
  | cannotCreate (path : String)
  | cannotWrite (path : String)
  | cannotCopy (path : String)
  | directory (cause : DirectoryError)
  | cannotCreateArchive
  deriving DecidableEq, Repr

namespace WriteError

/-- The error for the reader. -/
def message : WriteError → String
  | .outputDirectory => "Failed to create output directory"
  | .cannotCreate path => "Failed to create " ++ path
  | .cannotWrite path => "Failed to write " ++ path
  | .cannotCopy path => "Failed to copy " ++ path
  | .directory cause => cause.message
  | .cannotCreateArchive => "Failed to create ZIP file"

end WriteError

/-- What is to be written at a path. -/
inductive WriteSource where
  | text (content : String)
  /-- A copy of the file at another path. -/
  | copyOf (path : String)

/-- One file to be written, by its path below the output directory. -/
structure PlannedWrite where
  path : String
  source : WriteSource

namespace Output

/-- What is written for a file of the project. -/
def planFile (result : MigrationResult) (file : ProjectFile) : PlannedWrite where
  path := file.path
  source := match result.modifiedContent? file.path, file.content with
    | some content, _ => .text content
    | none, .inMemory text => .text text
    | none, .onDisk location _ => .copyOf location

/-- Everything that is written for a run, in order. -/
def plan (project : Project) (result : MigrationResult) : List PlannedWrite :=
  project.map (planFile result)
    ++ ((result.modifiedFiles.filter fun file => (project.get? file.path).isNone).map fun file =>
      ⟨file.path, .text file.content⟩)
    ++ result.newFiles.map fun file => ⟨file.path, .text file.content⟩

/-- Writes one file; the disk as it is left, and the failure if there was one. -/
def writeOne (directory : String) (disk : Disk) (planned : PlannedWrite) : Disk × Option WriteError :=
  let target := DiskPath.join directory planned.path
  let parent := DiskPath.parent target
  match disk.createDirectory parent, planned.source with
  | .error _, .text _ => (disk, some (.cannotCreate parent))
  | .error e, .copyOf _ => (disk, some (.directory e))
  | .ok disk, .text content =>
    match disk.store? target (.file content.toUTF8) with
    | some disk => (disk, none)
    | none => (disk, some (.cannotWrite target))
  | .ok disk, .copyOf source =>
    match disk.copy? source target with
    | some disk => (disk, none)
    | none => (disk, some (.cannotCopy source))

/-- Writes files one after another up to the first failure. -/
def writeAll (directory : String) : List PlannedWrite → Disk → Disk × Option WriteError
  | [], disk => (disk, none)
  | planned :: rest, disk =>
    let step := writeOne directory disk planned
    if step.2.isSome then step else writeAll directory rest step.1

/-- Writes the result of a run below a directory. -/
def write (disk : Disk) (project : Project) (result : MigrationResult) (directory : String) :
    Disk × Option WriteError :=
  match disk.createDirectory directory with
  | .ok disk => writeAll directory (plan project result) disk
  | .error _ => (disk, some .outputDirectory)

/-- The files below a directory as entries of an archive. -/
def archiveOf (disk : Disk) (directory : String) : List ArchiveEntry :=
  (disk.filesBelow (DiskPath.location directory)).map fun (names, entry) =>
    { name := String.intercalate "/" names
      bytes := match entry with
        | .file bytes => bytes
        | _ => .empty }

/-- A disk with an archive of a directory. -/
def zip (disk : Disk) (directory archive : String) : Except WriteError Disk :=
  match disk.store? archive (.archive (archiveOf disk directory)) with
  | some disk => .ok disk
  | none => .error .cannotCreateArchive

end Output

end SpaMigration
