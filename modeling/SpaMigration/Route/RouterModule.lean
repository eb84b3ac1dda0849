import SpaMigration.GeneratedFile
import SpaMigration.Options
import SpaMigration.Route.Target

/-!
# The generated router module

One module declares every layout and page as a lazily loaded component and lists the routes, each page
wrapped in its layout.
-/
namespace SpaMigration.RouterModule

/-- The import specifier of a project file as seen from the router module in `src`. -/
def importPath (file : String) : String :=
  let stem := ProjectPath.stem file
  match Text.dropPrefix? "src/".toList stem.toList with
  | some inside => "./" ++ String.ofList inside
  | none => "../" ++ stem

/-- The layouts in the order of their first use. -/
def layouts (routes : List TargetRoute) : List String :=
  Text.dedup (routes.filterMap (·.layout))

/-- The declaration of a lazily loaded component. -/
def lazyDeclaration (name file : String) : String :=
  "const " ++ name ++ " = lazy(() => import('" ++ importPath file ++ "'));\n"

/-- The element of a route: its page inside its layout. -/
def element (route : TargetRoute) : String :=
  let page := "<" ++ route.component ++ " />"
  match route.layout with
  | some layout =>
    let name := TargetRoute.layoutName layout
    "<" ++ name ++ ">" ++ page ++ "</" ++ name ++ ">"
  | none => page

/-- The entry of a route. -/
def entry (route : TargetRoute) : String :=
  "  \x7b path: '" ++ route.path ++ "', element: <Suspense fallback=\x7bnull\x7d>" ++ element route ++
    "</Suspense> \x7d,\n"

/-- The text of the module. -/
def content (routes : List TargetRoute) : String :=
  "import \x7b lazy, Suspense \x7d from 'react';\n" ++
    "import \x7b createBrowserRouter \x7d from 'react-router-dom';\n\n" ++
    String.join ((layouts routes).map fun file =>
      lazyDeclaration (TargetRoute.layoutName file) file) ++
    String.join (routes.map fun route => lazyDeclaration route.component route.file) ++
    "\nexport const router = createBrowserRouter([\n" ++
    String.join (routes.map entry) ++
    "]);\n"

/-- The generated file. -/
def render (routes : List TargetRoute) (targetSyntax : TargetSyntax) : GeneratedFile where
  path := "src/router." ++ targetSyntax.markupExtension
  content := content routes
  purpose := "React Router configuration for " ++ toString routes.length ++ " routes"

end SpaMigration.RouterModule
