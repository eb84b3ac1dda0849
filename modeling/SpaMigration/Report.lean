import SpaMigration.Migration.Result
import SpaMigration.Route.Target

/-!
# The report of a run

The result of a run as a Markdown text: a summary, the routes, packages and files, the messages, and what is
left to do. A section without content is left out.
-/
namespace SpaMigration.Report

/-- A section with a title, unless it is empty. -/
def titled (title : String) (lines : List String) : String :=
  if lines.isEmpty then "" else "## " ++ title ++ "\n\n" ++ String.join (lines.map (· ++ "\n")) ++ "\n"

/-- Text set as code. -/
def code (s : String) : String := "\x60" ++ s ++ "\x60"

/-- The figures of the run. -/
def summaryLines (result : MigrationResult) : List String :=
  ["- **Conversion Status**: " ++ (if result.success then "✅ Success" else "❌ Failed"),
   "- **Total Files**: " ++ toString result.stats.totalFiles,
   "- **Files Modified**: " ++ toString result.stats.modifiedFiles
     ++ " (" ++ result.stats.rate.percentage 1 ++ ")",
   "- **Files Added**: " ++ toString result.newFiles.length,
   "- **Routes**: " ++ toString result.stats.routeChanges,
   "- **Dependency Changes**: " ++ toString result.stats.dependencyChanges]

/-- The row of a route. -/
def routeRow (route : Route) : String :=
  "| " ++ code route.path ++ " | " ++ code (TargetRoute.pathOf route.path) ++ " | " ++ code route.file
    ++ " | " ++ (route.layout.map code).getD "-" ++ " |"

/-- The table of the routes. -/
def routeLines (routes : List Route) : List String :=
  if routes.isEmpty then []
  else
    "| Next.js path | React Router path | File | Layout |" :: "|---|---|---|---|" :: routes.map routeRow

/-- The line of a package. -/
def dependencyLine (change : DependencyChange) : String :=
  match change.action with
  | .add =>
    "- Add " ++ code change.name ++ " " ++ change.toVersion.getD "" ++ (if change.dev then " (dev)" else "")
  | .remove => "- Remove " ++ code change.name
  | .update =>
    "- Update " ++ code change.name ++ " " ++ change.fromVersion.getD "?" ++ " → "
      ++ change.toVersion.getD "?"

/-- What is left to do. -/
def nextSteps : List String :=
  ["1. Run the installation commands and \x60npm install\x60",
   "2. Add an \x60index.html\x60 and a \x60src/main\x60 entry that renders "
     ++ "\x60<RouterProvider router=\x7brouter\x7d />\x60",
   "3. Move data fetching out of the flagged \x60getStaticProps\x60/\x60getServerSideProps\x60 functions",
   "4. Address the warnings listed above"]

/-- The report of a run. -/
def render (result : MigrationResult) : String :=
  "# Next.js to Vite Conversion Report\n\n"
    ++ titled "Summary" (summaryLines result)
    ++ titled "Routes" (routeLines result.routes)
    ++ titled "Dependencies" (result.dependencies.map dependencyLine)
    ++ titled "Transformed Files" (result.transformedFiles.map fun file => "- " ++ code file)
    ++ titled "Generated Files"
      (result.newFiles.map fun file => "- " ++ code file.path ++ ": " ++ file.purpose)
    ++ titled "⛔ Errors" (result.errors.map ("- " ++ ·))
    ++ titled "⚠️ Warnings" (result.warnings.map ("- " ++ ·))
    ++ titled "Next Steps" nextSteps

end SpaMigration.Report
