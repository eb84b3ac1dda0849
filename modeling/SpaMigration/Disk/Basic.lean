import SpaMigration.Archive.Basic
import SpaMigration.Disk.Path

/-!
# Disks

A disk maps locations to what stands there: a directory, a file with its bytes, or an archive with its
entries. Writing and creating may fail, and what was done before stays.
-/
namespace SpaMigration

/-- What stands at a location. -/
inductive DiskEntry where
  | directory
  | file (bytes : ByteArray)
  | archive (entries : List ArchiveEntry)

/-- Files are equal when their bytes are, and archives when their entries are. -/
instance : DecidableEq DiskEntry
  | .directory, .directory => isTrue rfl
  | .file a, .file b => decidable_of_iff (a.data = b.data) (by simp [ByteArray.ext_iff])
  | .archive a, .archive b => decidable_of_iff (a = b) (by simp)
  | .directory, .file _ => isFalse (by simp)
  | .directory, .archive _ => isFalse (by simp)
  | .file _, .directory => isFalse (by simp)
  | .file _, .archive _ => isFalse (by simp)
  | .archive _, .directory => isFalse (by simp)
  | .archive _, .file _ => isFalse (by simp)

/-- A disk: locations and what stands there. -/
abbrev Disk := List (List String × DiskEntry)

/-- Why a directory could not be created. -/
inductive DirectoryError where
  /-- Something else stands at the location. -/
  | occupied
  /-- Something else stands on the way. -/
  | blocked
  deriving DecidableEq, Repr

namespace DirectoryError

/-- The error in the words of the system. -/
def message : DirectoryError → String
  | .occupied => "File exists (os error 17)"
  | .blocked => "Not a directory (os error 20)"

end DirectoryError

namespace Disk

/-- What stands at a location. The root and the place where relative paths start are directories. -/
def get? (disk : Disk) (location : List String) : Option DiskEntry :=
  if location.isEmpty || location == ["/"] then some .directory else (disk.find? (·.1 == location)).map (·.2)

/-- A disk with an entry put at a location. -/
def put (disk : Disk) (location : List String) (entry : DiskEntry) : Disk :=
  if disk.any (·.1 == location) then
    disk.map fun other => if other.1 == location then (location, entry) else other
  else disk ++ [(location, entry)]

/-- A directory stands at the location. -/
def isDirectory (disk : Disk) (location : List String) : Bool :=
  match disk.get? location with
  | some .directory => true
  | _ => false

/-- A file stands at the location. -/
def isFile (disk : Disk) (location : List String) : Bool :=
  match disk.get? location with
  | some .directory | none => false
  | some _ => true

/-- The bytes of the file at a path. -/
def readBytes? (disk : Disk) (path : String) : Option ByteArray :=
  if DiskPath.endsAsDirectory path then none
  else
    match disk.get? (DiskPath.location path) with
    | some (.file bytes) => some bytes
    | _ => none

/-- The text of the file at a path. -/
def readText? (disk : Disk) (path : String) : Option String :=
  (disk.readBytes? path).bind String.fromUTF8?

/-- Follows names from a location and makes every directory that is missing. -/
def makeDirectories : List String → List String → Disk → Except DirectoryError Disk
  | _, [], disk => .ok disk
  | location, name :: rest, disk =>
    let next := DiskPath.enter location name
    if disk.isFile next then .error (if rest.isEmpty then .occupied else .blocked)
    else makeDirectories next rest (if disk.isDirectory next then disk else disk.put next .directory)

/-- A disk with a directory and all directories on the way to it, unless something else stands there. -/
def createDirectory (disk : Disk) (path : String) : Except DirectoryError Disk :=
  makeDirectories (DiskPath.start path) (DiskPath.names path) disk

/-- A disk with an entry at a path, where a file may stand. -/
def store? (disk : Disk) (path : String) (entry : DiskEntry) : Option Disk :=
  let location := DiskPath.location path
  if DiskPath.endsAsDirectory path || disk.isDirectory location || !disk.isDirectory location.dropLast then
    none
  else some (disk.put location entry)

/-- A disk with the file at one path copied to another. A file copied to itself ends up empty. -/
def copy? (disk : Disk) (source target : String) : Option Disk := do
  match disk.get? (DiskPath.location source) with
  | some (.file _) | some (.archive _) =>
    let emptied ← disk.store? target (.file .empty)
    let entry ← emptied.get? (DiskPath.location source)
    emptied.store? target entry
  | _ => none

/-- The files below a directory: the names that lead there from it, and what stands there. -/
def filesBelow (disk : Disk) (directory : List String) : List (List String × DiskEntry) :=
  disk.filterMap fun (location, entry) =>
    match entry with
    | .directory => none
    | _ =>
      if directory.isPrefixOf location then some (location.drop directory.length, entry) else none

end Disk

end SpaMigration
