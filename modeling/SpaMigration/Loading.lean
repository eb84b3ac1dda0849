import SpaMigration.Disk.Basic
import SpaMigration.Json.Parser
import SpaMigration.Project

/-!
# Loading projects

A project is loaded from a directory or from an archive, without the directories that are never part of
one, and its files are put in order of their paths. In an archive the project may stand in a folder: the
shallowest manifest tells where it starts.
-/
namespace SpaMigration

/-- Why a project could not be loaded. -/
inductive LoadError where
  | unsupportedInput
  | cannotOpenArchive
  | notAnArchive
  | unreadableManifest
  | invalidManifest
  deriving DecidableEq, Repr

namespace LoadError

/-- The error for the reader. -/
def message : LoadError → String
  | .unsupportedInput => "Unsupported input format. Expected a project directory or a .zip file"
  | .cannotOpenArchive => "Failed to open archive"
  | .notAnArchive => "Failed to read ZIP archive"
  | .unreadableManifest => "Failed to read package.json"
  | .invalidManifest => "Failed to parse package.json"

end LoadError

/-- A project and its manifest, if it has one. -/
structure LoadedProject where
  project : Project
  manifest : Option Json

namespace Project

/-- Puts a file in front of the first one whose path is not smaller. -/
def insertByPath (file : ProjectFile) : Project → Project
  | [] => [file]
  | other :: rest => if file.path ≤ other.path then file :: other :: rest else other :: insertByPath file rest

/-- The files in order of their paths; files of one path stay in the order given. -/
def sortByPath : Project → Project
  | [] => []
  | file :: rest => insertByPath file (sortByPath rest)

end Project

namespace LoadedProject

/-- The file that is the manifest. -/
def manifestName : String := "package.json"

/-- The manifest with a text. -/
def parseManifest (text : String) : Except LoadError Json :=
  match Json.parseCanonical? text with
  | some manifest => .ok manifest
  | none => .error .invalidManifest

/-- A file found below a directory. -/
def diskFile (directory : String) (found : List String × DiskEntry) : ProjectFile :=
  let path := String.intercalate "/" found.1
  let bytes := match found.2 with
    | .file bytes => bytes
    | _ => .empty
  ⟨path, .onDisk (DiskPath.join directory path) (some bytes)⟩

/-- The project in a directory. -/
def ofDirectory (disk : Disk) (directory : String) : Except LoadError LoadedProject := do
  let location := DiskPath.location directory
  let files := (disk.filesBelow location).filter fun found =>
    !found.1.any ProjectPath.ignoredDirectories.contains
  let project := Project.sortByPath (files.map (diskFile directory))
  if disk.isFile (location ++ [manifestName]) then
    match disk.readText? (DiskPath.join directory manifestName) with
    | some text => return ⟨project, some (← parseManifest text)⟩
    | none => .error .unreadableManifest
  else return ⟨project, none⟩

/-- The name of an entry that stands for a directory. -/
def isDirectoryName (name : String) : Bool :=
  name.toList.getLast?.any fun c => c == '/' || c == '\\'

/-- The entries of an archive that are texts, with slashes in their names. -/
def textEntries (entries : List ArchiveEntry) : List (String × String) :=
  entries.filterMap fun entry =>
    if isDirectoryName entry.name then none
    else
      let name := entry.name.toList.map fun c => if c == '\\' then '/' else c
      (String.fromUTF8? entry.bytes).map (String.ofList name, ·)

/-- What stands in front of the manifest in a name that ends with it. -/
def wrapper? (name : String) : Option String :=
  if name == manifestName then some ""
  else (Text.dropSuffix? ('/' :: manifestName.toList) name.toList).map fun folder =>
    String.ofList (folder ++ ['/'])

/-- The first of the shortest texts. -/
def shortest : List String → Option String
  | [] => none
  | s :: rest =>
    match shortest rest with
    | some other => if s.utf8ByteSize ≤ other.utf8ByteSize then some s else some other
    | none => some s

/-- The folder of an archive that the project stands in. -/
def rootOf (entries : List (String × String)) : String :=
  (shortest (entries.filterMap fun entry => wrapper? entry.1)).getD ""

/-- The entries of the project by their paths inside it. -/
def projectEntries (entries : List (String × String)) : List (String × String) :=
  let root := rootOf entries
  entries.filterMap fun (name, text) =>
    (Text.dropPrefix? root.toList name.toList).bind fun path =>
      let path := String.ofList path
      if ProjectPath.isIgnored path then none else some (path, text)

/-- The project in an archive. Of several manifests the last one counts, and each has to be valid. -/
def ofArchive (entries : List ArchiveEntry) : Except LoadError LoadedProject := do
  let found := projectEntries (textEntries entries)
  let manifests ← (found.filter (·.1 == manifestName)).mapM fun (_, text) => parseManifest text
  let files := found.map fun (path, text) => (⟨path, .inMemory text⟩ : ProjectFile)
  return ⟨Project.sortByPath files, manifests.getLast?⟩

/-- The project at a path: a directory or an archive. -/
def load (disk : Disk) (path : String) : Except LoadError LoadedProject :=
  if disk.isDirectory (DiskPath.location path) then ofDirectory disk path
  else if ProjectPath.extension? path == some "zip" then
    match disk.get? (DiskPath.location path) with
    | some (.archive entries) => ofArchive entries
    | some _ => .error .notAnArchive
    | none => .error .cannotOpenArchive
  else .error .unsupportedInput

end LoadedProject

end SpaMigration
