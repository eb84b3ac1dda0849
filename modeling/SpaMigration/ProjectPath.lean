import SpaMigration.Text.Basic

/-!
# Paths inside a project

Files of a project are named by paths with `/` between the parts. This module takes such paths apart,
tells the kind of source a path names, and knows which directories and files are never treated as
sources and which directories hold pages.
-/
namespace SpaMigration

/-- The kind of source text a file extension announces. -/
inductive SourceKind where
  | script
  | typedScript
  | markup
  deriving DecidableEq, Repr

namespace ProjectPath

/-- The part up to and including the last slash, and the file name after it. -/
def splitName (path : List Char) : List Char × List Char :=
  ((path.reverse.dropWhile (· != '/')).reverse, (path.reverse.takeWhile (· != '/')).reverse)

/-- The two parts of a path make up the path. -/
theorem splitName_append (path : List Char) :
    (splitName path).1 ++ (splitName path).2 = path := by
  rw [splitName, ← List.reverse_append, List.takeWhile_append_dropWhile, List.reverse_reverse]

/-- The parts between the slashes. -/
def segments (path : String) : List String :=
  (Text.splitOn '/' path.toList).map String.ofList

/-- The part after the last slash. -/
def fileName (path : String) : String :=
  String.ofList (splitName path.toList).2

/-- The directory of a path, empty when there is no slash. -/
def parent (path : String) : String :=
  String.ofList (splitName path.toList).1.dropLast

/-- The path without the last extension of its file name; a leading dot starts no extension. -/
def stem (path : String) : String :=
  let (directory, name) := splitName path.toList
  match Text.splitLast? '.' name with
  | some (before, _) => if before.isEmpty then path else String.ofList (directory ++ before)
  | none => path

/-- The last extension of the last proper part of a path. Empty parts and parts that are a single dot
do not count; the part for the directory above has no extension. -/
def extension? (path : String) : Option String := do
  let parts := (Text.splitOn '/' path.toList).filter fun part => !part.isEmpty && part != ['.']
  let name ← parts.getLast?
  if name = ['.', '.'] then none
  let (before, after) ← Text.splitLast? '.' name
  if before.isEmpty then none else some (String.ofList after)

/-- The kind of source a path names, by its extension. -/
def sourceKind? (path : String) : Option SourceKind :=
  match extension? path with
  | some "js" | some "mjs" | some "cjs" => some .script
  | some "ts" | some "mts" | some "cts" => some .typedScript
  | some "jsx" | some "tsx" => some .markup
  | _ => none

/-- A file that may hold markup. -/
def isMarkup (path : String) : Bool := sourceKind? path == some .markup

/-- Directories that never hold sources of the project. -/
def ignoredDirectories : List String := ["node_modules", ".next", ".git", "dist", "out", "build"]

/-- Files that pin the versions of dependencies. -/
def lockFiles : List String := ["package-lock.json", "yarn.lock", "pnpm-lock.yaml", "bun.lockb"]

/-- Some part of the path is an ignored directory. -/
def isIgnored (path : String) : Bool := (segments path).any ignoredDirectories.contains

/-- A file that is left alone: no source, a declaration file, a lock file or ignored. -/
def isSkipped (path : String) : Bool :=
  let name := fileName path
  lockFiles.contains name || Text.endsWith name.toList ".d.ts".toList || isIgnored path ||
    (sourceKind? path).isNone

/-- The directories that hold pages, the more specific one first. -/
def pageRoots : List String := ["src/pages", "pages"]

/-- The page directory a path lies in and the path from there. -/
def splitPageRoot? (path : String) : Option (String × String) :=
  pageRoots.findSome? fun root =>
    (Text.dropPrefix? (root.toList ++ ['/']) path.toList).map fun rest => (root, String.ofList rest)

end ProjectPath

end SpaMigration
