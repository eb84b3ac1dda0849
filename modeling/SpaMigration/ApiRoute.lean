import SpaMigration.Diagnostic
import SpaMigration.Pattern.Match
import SpaMigration.Project

/-!
# Request handlers

The files below `api` in a directory of pages handle requests on a server. They cannot be carried over, so
each one is reported with its endpoint and the methods it asks for.
-/
namespace SpaMigration

open Pattern (cat choice text many atLeastOne optional blanks blanks1 quote)

/-- A file that handles requests. -/
structure ApiRoute where
  file : String
  endpoint : String
  /-- The methods that the handler tells apart, in order of their names. -/
  methods : List String
  deriving DecidableEq, Repr

namespace ApiRoute

/-- The methods looked for, in order of their names. -/
def methodNames : List String := ["DELETE", "GET", "HEAD", "OPTIONS", "PATCH", "POST", "PUT"]

/-- The name of a method in quotes; the name is the first group. -/
def quotedMethod : Pattern := cat [quote, .group 1 (choice (methodNames.map text)), quote]

/-- A comparison with a method. -/
def methodCheck : Pattern :=
  cat [text ".method", blanks, text "==", optional (text "="), blanks, quotedMethod]

/-- A case of a choice between methods. -/
def methodCase : Pattern := cat [text "case", blanks1, quotedMethod]

/-- The methods that a handler tells apart, in order of their names. -/
def methodsIn (code : List Char) : List String :=
  let found := (methodCheck.findAll code ++ methodCase.findAll code).map (·.group 1)
  methodNames.filter fun name => found.contains name.toList

/-- A file that handles requests. -/
def isHandler (path : String) : Bool :=
  ((ProjectPath.splitPageRoot? path).any fun (_, rest) => Text.startsWith rest.toList "api/".toList)
    && !ProjectPath.isSkipped path

/-- The text without any number of occurrences of an ending, which is not empty. -/
def trimEnding (ending : List Char) : Nat → List Char → List Char
  | 0, s => s
  | fuel + 1, s =>
    match Text.dropSuffix? ending s with
    | some before => trimEnding ending fuel before
    | none => s

/-- The endpoint of a handler: its path below the directory of pages, without extension and index. -/
def endpointOf (path : String) : String :=
  let below := ((ProjectPath.splitPageRoot? path).map (·.2)).getD path
  let whole := '/' :: (ProjectPath.stem below).toList
  String.ofList (trimEnding "/index".toList whole.length whole)

/-- The methods of a handler's file, and a warning when it cannot be read. -/
def readMethods (file : ProjectFile) : List String × List Diagnostic :=
  match file.read with
  | .ok code => (methodsIn code.toList, [])
  | .error e =>
    ([], [.warningIn file.path "API_ROUTE_READ_ERROR" ("Failed to read API route: " ++ e.message)])

/-- The warning that a handler needs a server. -/
def serverWarning (route : ApiRoute) : Diagnostic :=
  let note := if route.methods.isEmpty then ""
    else " (methods: " ++ String.intercalate ", " route.methods ++ ")"
  .warningIn route.file "API_ROUTE_NEEDS_SERVER"
    ("API route " ++ route.endpoint ++ note
      ++ " needs a server runtime; move it to an Express or serverless handler")

/-- A handler and its warnings. -/
def ofFile (file : ProjectFile) : ApiRoute × List Diagnostic :=
  let (methods, problems) := readMethods file
  let route : ApiRoute := ⟨file.path, endpointOf file.path, methods⟩
  (route, problems ++ [route.serverWarning])

/-- The handlers of a project and the warnings about them. -/
def survey (project : Project) : List ApiRoute × List Diagnostic :=
  let found := (project.filter fun file => isHandler file.path).map ofFile
  (found.map (·.1), found.flatMap (·.2))

end ApiRoute

end SpaMigration
