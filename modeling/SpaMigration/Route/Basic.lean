import SpaMigration.Pattern.Match
import SpaMigration.ProjectPath

/-!
# The route table of the page directory

Each source file in the page directory is a route: its path from there, without extension, is the
address, with parameters in brackets. Files and directories whose name starts with an underscore are
private. A `_layout` file wraps the routes at and below its directory; the nearest one counts.
-/
namespace SpaMigration

/-- A page and its address in bracket notation. -/
structure Route where
  path : String
  file : String
  isDynamic : Bool
  isCatchAll : Bool
  isOptionalCatchAll : Bool
  params : List String
  layout : Option String
  isIndex : Bool
  deriving DecidableEq, Repr

namespace Route

/-- A group in brackets: opening brackets, possibly three dots, the name, closing brackets. -/
def bracketGroup : Pattern :=
  .cat [.atLeastOne (.text "["), .optional (.text "..."), .group 1 (.many (.noneOf "[]")),
    .atLeastOne (.text "]")]

/-- The names of the parameters of a path, from left to right. -/
def paramsOf (path : String) : List String :=
  ((bracketGroup.findAll path.toList).map (·.group 1)).filterMap fun name =>
    if name.isEmpty then none else some (String.ofList name)

/-- The file names of layouts. -/
def layoutNames : List String := ["/_layout.tsx", "/_layout.jsx", "/_layout.js", "/_layout.ts"]

/-- A layout in some directory. -/
def isLayout (file : String) : Bool :=
  layoutNames.any fun name => Text.endsWith file.toList name.toList

/-- The last layout that lies directly in a directory. -/
def layoutIn? (files : List String) (directory : String) : Option String :=
  files.reverse.find? fun file => isLayout file && ProjectPath.parent file == directory

/-- The directory and those above it, as long as they are longer than the root, and the first that is
not. -/
def directoriesUpTo (root : String) : Nat → String → List String
  | 0, _ => []
  | fuel + 1, directory =>
    if directory.utf8ByteSize ≤ root.utf8ByteSize then [directory]
    else directory :: directoriesUpTo root fuel (ProjectPath.parent directory)

/-- The layout nearest to a file, looked for from its directory up to the page directory. -/
def nearestLayout? (files : List String) (root file : String) : Option String :=
  let directory := ProjectPath.parent file
  (directoriesUpTo root (directory.utf8ByteSize + 1) directory).findSome? (layoutIn? files)

/-- The route of a file, where `files` are all files of the project. -/
def ofFile? (files : List String) (file : String) : Option Route := do
  let (root, relative) ← ProjectPath.splitPageRoot? file
  if (ProjectPath.sourceKind? file).isNone then none
  if (ProjectPath.segments relative).any fun part => part.toList.head? == some '_' then none
  let stem := (ProjectPath.stem relative).toList
  let indexStem? := if stem = "index".toList then some [] else
    (Text.dropSuffix? "/index".toList stem).map (· ++ ['/'])
  let path := '/' :: indexStem?.getD stem
  let isOptionalCatchAll := Text.occursIn "[[...".toList path
  return {
    path := String.ofList path
    file
    isDynamic := path.contains '[' && path.contains ']'
    isCatchAll := !isOptionalCatchAll && Text.occursIn "[...".toList path
    isOptionalCatchAll
    params := paramsOf (String.ofList path)
    layout := nearestLayout? files root file
    isIndex := indexStem?.isSome }

/-- The routes of a project, in the order of its files. -/
def table (files : List String) : List Route := files.filterMap (ofFile? files)

/-- The route is a server endpoint. -/
def isApi (route : Route) : Bool :=
  route.path == "/api" || Text.startsWith route.path.toList "/api/".toList

/-- The routes that are server endpoints. -/
def apiRoutes (routes : List Route) : List Route := routes.filter isApi

end Route

end SpaMigration
