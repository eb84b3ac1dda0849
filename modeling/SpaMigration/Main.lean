import SpaMigration.Archive.Zip
import SpaMigration.Cli.Run

/-!
# The program

Takes a picture of what stands at the paths that a command names, executes the command on it, and brings
what has changed back to the disk.
-/
namespace SpaMigration.Cli

/-- The path that leads to a location. -/
def pathTo : List String → String
  | "/" :: names => "/" ++ String.intercalate "/" names
  | names => String.intercalate "/" names

/-- The names in a directory; `none` when there is none at the path. -/
def namesIn? (path : String) : IO (Option (List String)) := do
  let place := (← IO.currentDir) / path
  match ← place.readDir.toBaseIO with
  | .ok entries => return some (entries.toList.map (·.fileName))
  | .error _ => return none

/-- Adds what stands at a path itself. -/
def lookAt (disk : Disk) (path : String) : IO Disk := do
  let location := DiskPath.location path
  if (← namesIn? path).isSome then return disk.put location .directory
  else
    match ← (IO.FS.readBinFile path).toBaseIO with
    | .ok bytes => return disk.put location (.file bytes)
    | .error _ => return disk

/-- Adds what stands at a path and on the way to it. -/
def lookAlong (disk : Disk) (path : String) : IO Disk := do
  let location := DiskPath.location path
  (List.range location.length).foldlM
    (fun disk n => lookAt disk (pathTo (location.take (n + 1)))) disk

/-- Adds everything below a path, without the directories that are left out. -/
partial def lookBelow (leftOut : List String) (disk : Disk) (path : String) : IO Disk := do
  match ← namesIn? path with
  | none => lookAt disk path
  | some names =>
    (names.filter fun name => !leftOut.contains name).foldlM
      (fun disk name => lookBelow leftOut disk (DiskPath.join path name))
      (disk.put (DiskPath.location path) .directory)

/-- Adds the project at a path. -/
def lookAtProject (disk : Disk) (path : String) : IO Disk := do
  let disk ← lookBelow ProjectPath.ignoredDirectories (← lookAlong disk path) path
  match disk.readBytes? path with
  | some bytes =>
    match Zip.decode? bytes with
    | some entries => return disk.put (DiskPath.location path) (.archive entries)
    | none => return disk
  | none => return disk

/-- The part of the disk that a command works on. -/
def picture : Command → IO Disk
  | .convert arguments => do
    let disk ← lookBelow [] (← lookAlong [] arguments.output) arguments.output
    let beside := ["md", "zip"].map (DiskPath.withExtension arguments.output)
    let disk ← (arguments.config.toList ++ beside).foldlM lookAlong disk
    lookAtProject disk arguments.input
  | .analyze input | .routes input => lookAtProject [] input
  | .version | .help => return []

/-- Brings one changed entry back to the disk. -/
def bringBack (location : List String) : DiskEntry → IO Unit
  | .directory => IO.FS.createDirAll (pathTo location)
  | .file bytes => IO.FS.writeBinFile (pathTo location) bytes
  | .archive entries => IO.FS.writeBinFile (pathTo location) (Zip.encode entries)

/-- Brings everything that has changed back to the disk. -/
def bringAllBack (before after : Disk) : IO Unit :=
  after.forM fun (location, entry) =>
    if before.get? location = some entry then pure () else bringBack location entry

/-- Executes a command line on the real disk. -/
def runOnDisk (arguments : List String) : IO UInt32 := do
  let before ← match parse? arguments with
    | some command => picture command
    | none => pure []
  let outcome := run arguments before
  bringAllBack before outcome.disk
  IO.print outcome.text
  if let some failure := outcome.failure then
    IO.eprintln "❌ Conversion failed!"
    IO.eprintln ("Error: " ++ failure.message)
  return outcome.exitCode.toUInt32

end SpaMigration.Cli

/-- Executes the command line. -/
def main (arguments : List String) : IO UInt32 := SpaMigration.Cli.runOnDisk arguments
