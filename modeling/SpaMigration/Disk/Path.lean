import SpaMigration.ProjectPath

/-!
# Paths on a disk

A path is a text with `/` between names. It is taken as it is written: joining and shortening work on the
text, and `location` resolves it to the names that lead to its file.
-/
namespace SpaMigration.DiskPath

/-- A path behind another one; one that starts at the root stands on its own. -/
def join (directory path : String) : String :=
  if Text.startsWith path.toList ['/'] || directory.isEmpty then path
  else if Text.endsWith directory.toList ['/'] then directory ++ path
  else directory ++ "/" ++ path

/-- A path without slashes and single dots at its end, the root apart. -/
def trimEnd : Nat → List Char → List Char
  | 0, path => path
  | fuel + 1, path =>
    if path == ['/'] then path
    else
      match Text.dropSuffix? ['/'] path, Text.dropSuffix? ['/', '.'] path with
      | some shorter, _ => trimEnd fuel shorter
      | none, some shorter => trimEnd fuel (if shorter.isEmpty then ['/'] else shorter)
      | none, none => path

/-- A path without what does not belong to its last name. -/
def trimmed (path : String) : List Char := trimEnd path.length path.toList

/-- The path of the directory that a path lies in. -/
def parent (path : String) : String :=
  let (directory, _) := ProjectPath.splitName (trimmed path)
  String.ofList (trimEnd directory.length directory)

/-- The path with the extension of its last name replaced, or with one added. -/
def withExtension (path extension : String) : String :=
  let (directory, name) := ProjectPath.splitName (trimmed path)
  if name.isEmpty || name == ['.', '.'] then path
  else
    let stem := match Text.splitLast? '.' name with
      | some (before, _) => if before.isEmpty then name else before
      | none => name
    String.ofList (directory ++ stem) ++ "." ++ extension

/-- The names that a path is made of. Empty ones and single dots lead nowhere. -/
def names (path : String) : List String :=
  (ProjectPath.segments path).filter fun name => name != "" && name != "."

/-- Where a path starts. The root is a name of its own, so that paths from the root are told from others. -/
def start (path : String) : List String :=
  if Text.startsWith path.toList ['/'] then ["/"] else []

/-- The location that a name leads to from another one. Two dots lead to the directory above; the root has
none. -/
def enter (location : List String) (name : String) : List String :=
  if name != ".." then location ++ [name]
  else if location == ["/"] then location
  else if location.isEmpty || location.getLast? == some ".." then location ++ [name]
  else location.dropLast

/-- The names that lead to what a path denotes. -/
def location (path : String) : List String := (names path).foldl enter (start path)

/-- The path can only denote a directory, by the way it ends. -/
def endsAsDirectory (path : String) : Bool :=
  path.isEmpty || Text.endsWith path.toList ['/'] || Text.endsWith path.toList ['/', '.']

end SpaMigration.DiskPath
