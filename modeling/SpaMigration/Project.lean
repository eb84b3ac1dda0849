import SpaMigration.ProjectPath

/-!
# Projects

A project is a list of files, each with its path inside the project. A file is held in memory or stands
somewhere on a disk; one on a disk may be gone when it is read, or may hold bytes that are no text.
-/
namespace SpaMigration

/-- The content of a file. -/
inductive FileContent where
  | inMemory (text : String)
  /-- A file at a location; `none` when nothing is there. -/
  | onDisk (location : String) (bytes : Option ByteArray)

/-- Why a file could not be read. -/
inductive ReadError where
  | notFound (location : String)
  | notText (location : String)
  deriving DecidableEq, Repr

namespace ReadError

/-- Which file could not be read. -/
def summary : ReadError → String
  | .notFound location | .notText location => "Failed to read " ++ location

/-- What was wrong with it. -/
def cause : ReadError → String
  | .notFound _ => "No such file or directory (os error 2)"
  | .notText _ => "stream did not contain valid UTF-8"

/-- The file and what was wrong with it. -/
def message (e : ReadError) : String := e.summary ++ ": " ++ e.cause

end ReadError

/-- A file of a project. -/
structure ProjectFile where
  path : String
  content : FileContent

namespace ProjectFile

/-- The text of a file. -/
def read (file : ProjectFile) : Except ReadError String :=
  match file.content with
  | .inMemory text => .ok text
  | .onDisk location none => .error (.notFound location)
  | .onDisk location (some bytes) =>
    match String.fromUTF8? bytes with
    | some text => .ok text
    | none => .error (.notText location)

/-- The bytes of a file, if it is there. -/
def bytes? (file : ProjectFile) : Option ByteArray :=
  match file.content with
  | .inMemory text => some text.toUTF8
  | .onDisk _ bytes => bytes

end ProjectFile

/-- The files of a project in the order they were found. -/
abbrev Project := List ProjectFile

namespace Project

/-- The paths of the files. -/
def paths (project : Project) : List String := project.map (·.path)

/-- The first file with a path. -/
def get? (project : Project) (path : String) : Option ProjectFile := project.find? (·.path == path)

end Project

end SpaMigration
