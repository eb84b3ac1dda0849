import SpaMigration.Pattern.Template
import SpaMigration.Route.Basic

/-!
# Routes of the client-side router

Bracket paths become paths of the router: `[name]` turns into `:name`, catch-all groups into `*`. Each
page gets a component name made of the words of its path; names that would occur twice are numbered.
-/
namespace SpaMigration

/-- A route of the client-side router. -/
structure TargetRoute where
  path : String
  component : String
  file : String
  legacyPath : String
  params : List String
  layout : Option String
  deriving DecidableEq, Repr

namespace TargetRoute

/-- A catch-all group in two pairs of brackets or in one. -/
def catchAll : Pattern :=
  .choice [.cat [.text "[[...", .many (.noneOf "]"), .text "]]"],
    .cat [.text "[...", .many (.noneOf "]"), .text "]"]]

/-- A parameter in brackets. -/
def parameter : Pattern := .cat [.text "[", .group 1 (.atLeastOne (.noneOf "]")), .text "]"]

/-- A bracket path in the notation of the router. Catch-all groups go first, since `[...name]` has the
form of a parameter too. -/
def pathOf (path : String) : String :=
  let wildcarded := catchAll.replaceAll (fun _ => ['*']) path.toList
  String.ofList (parameter.replaceAll (fun m => ':' :: m.group 1) wildcarded)

/-- Where the casing of words stands: at the start of a word, and after which lower-cased letter. -/
structure CasingState where
  atWordStart : Bool
  last : Char

/-- The letters and digits of the words run together, each word with a capital. A word starts after
anything that is neither letter nor digit, after a digit, and at a capital after a small letter. -/
def pascalCase : CasingState → List Char → List Char
  | _, [] => []
  | state, c :: cs =>
    if !c.isAlphanum then pascalCase { state with atWordStart := true } cs
    else if c.isDigit then c :: pascalCase { state with atWordStart := true } cs
    else if state.atWordStart || (state.last.isLower && c.isUpper) then
      c.toUpper :: pascalCase { state with atWordStart := false } cs
    else c.toLower :: pascalCase { state with last := c } cs

/-- A component name from any text, ending in `ending`; a name that would be empty or start with a digit
gets the ending in front as well. -/
def identifier (raw ending : String) : String :=
  let words := raw.toList.map fun c => if c.isAlphanum then c else ' '
  let name := pascalCase ⟨true, ' '⟩ words
  let name := if name.isEmpty || name.head?.any Char.isDigit then ending.toList ++ name else name
  String.ofList name ++ ending

/-- The component name of a page. -/
def pageName (file : String) : String :=
  let relative := match ProjectPath.splitPageRoot? file with
    | some (_, rest) => rest
    | none => file
  identifier (ProjectPath.stem relative) "Page"

/-- The component name of a layout, made from its directory. -/
def layoutName (file : String) : String :=
  let directory := ProjectPath.parent file
  let relative := match ProjectPath.splitPageRoot? (directory ++ "/") with
    | some (_, rest) => String.ofList (rest.toList.reverse.dropWhile (· == '/')).reverse
    | none => directory
  if relative.isEmpty then "RootLayout" else identifier relative "Layout"

/-- The name itself, or with the least number from two on that makes it unused. -/
def freshName (base : String) (used : List String) : String :=
  if used.contains base then
    let numbered := (List.range (used.length + 1)).map fun n => base ++ toString (n + 2)
    (numbered.find? fun name => !used.contains name).getD base
  else base

/-- The target of a route under a component name. -/
def ofRoute (route : Route) (component : String) : TargetRoute :=
  let path := (pathOf route.path).toList
  let path := if 1 < path.length && path.getLast? == some '/' then path.dropLast else path
  { path := String.ofList path
    component
    file := route.file
    legacyPath := route.path
    params := route.params
    layout := route.layout }

/-- The targets of pages one after another; `used` are the names given so far. -/
def assign : List Route → List String → List TargetRoute
  | [], _ => []
  | route :: routes, used =>
    let component := freshName (pageName route.file) used
    ofRoute route component :: assign routes (component :: used)

/-- The targets of all routes but the server endpoints. -/
def ofRoutes (routes : List Route) : List TargetRoute :=
  let endpoints := (Route.apiRoutes routes).map (·.file)
  assign (routes.filter fun route => !endpoints.contains route.file) []

end TargetRoute

end SpaMigration
