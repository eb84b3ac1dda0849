import SpaMigration.Cli.Arguments
import SpaMigration.Cli.Outcome
import SpaMigration.ProjectAnalysis
import SpaMigration.Report

/-!
# The commands

Each command as a function of its arguments and the disk. `run` understands a command line and executes it.
-/
namespace SpaMigration.Cli

/-- The line under a title. -/
def rule : String := String.ofList (List.replicate 50 '=')

/-- A section with a title, an empty line above it, unless there is nothing in it. -/
def listing (title : String) (items : List String) : List String :=
  if items.isEmpty then [] else "" :: title :: items.map ("  - " ++ ·)

/-! ## Converting -/

/-- The options in the file that was named, or the defaults. -/
def loadOptions (disk : Disk) : Option String → Except Failure Options
  | none => .ok {}
  | some path =>
    match disk.readText? path with
    | none => .error (.unreadableOptions path)
    | some text =>
      match (Json.parse? text).bind Options.ofJson? with
      | some options => .ok options
      | none => .error (.invalidOptions path)

/-- Options changed as the arguments ask: what a file turned off is not turned on again. -/
def ConvertArguments.override (arguments : ConvertArguments) (options : Options) : Options :=
  { options with
    target := arguments.target.getD options.target
    targetSyntax := if arguments.javascript then .javascript else options.targetSyntax
    useRouter := options.useRouter && !arguments.noRouter
    updateDependencies := options.updateDependencies && !arguments.noDeps
    replaceComponents := options.replaceComponents && !arguments.noComponents
    generateDeployConfigs := options.generateDeployConfigs && !arguments.noDeploy
    preserveComments := options.preserveComments && !arguments.stripComments
    batchSize := arguments.batchSize.getD options.batchSize }

/-- The figures of a run. -/
def summaryLines (result : MigrationResult) (output : String) : List String :=
  [if result.success then "✅ Conversion completed successfully!"
   else "⚠️  Conversion finished with errors",
   "",
   "📊 Summary:",
   "  - Files: " ++ toString result.stats.totalFiles,
   "  - Files modified: " ++ toString result.stats.modifiedFiles
     ++ " (" ++ result.stats.rate.percentage 1 ++ ")",
   "  - Files added: " ++ toString result.newFiles.length,
   "  - Routes: " ++ toString result.stats.routeChanges,
   "  - Dependency changes: " ++ toString result.stats.dependencyChanges,
   "  - Output: " ++ output]

/-- Writes the report next to the output. -/
def writeReport (result : MigrationResult) (output : String) (disk : Disk) : Outcome :=
  let path := DiskPath.withExtension output "md"
  match disk.store? path (.file (Report.render result).toUTF8) with
  | some disk => .print ["  - Report: " ++ path] disk
  | none => .fail (.conversion (.write (.cannotWrite path))) disk

/-- Packs the output into an archive next to it. -/
def writeArchive (output : String) (disk : Disk) : Outcome :=
  let path := DiskPath.withExtension output "zip"
  match Output.zip disk output path with
  | .ok disk => .print ["  - Archive: " ++ path] disk
  | .error e => .fail (.conversion (.write e)) disk

/-- What is printed and written once the project is converted. -/
def presentResult (arguments : ConvertArguments) (result : MigrationResult) (disk : Disk) : Outcome :=
  (Outcome.print (summaryLines result arguments.output) disk)
    |>.andThen (if arguments.report then writeReport result arguments.output else .print [])
    |>.andThen (if arguments.zip then writeArchive arguments.output else .print [])
    |>.andThen (.print (listing "⛔ Errors:" result.errors ++ listing "⚠️  Warnings:" result.warnings))

/-- Converts the project with some options. -/
def convertWith (arguments : ConvertArguments) (options : Options) (disk : Disk) : Outcome :=
  (Outcome.print ["Next.js to Vite Converter", rule, ""] disk).andThen fun disk =>
    match Conversion.run disk arguments.input arguments.output options with
    | (disk, .ok result) => presentResult arguments result disk
    | (disk, .error e) => .fail (.conversion e) disk

/-- Converts a project. -/
def convert (arguments : ConvertArguments) (disk : Disk) : Outcome :=
  Outcome.require (loadOptions disk arguments.config)
    (fun options => convertWith arguments (arguments.override options)) disk

/-! ## Looking at a project -/

/-- The project at a path. -/
def loadProject (disk : Disk) (input : String) : Except Failure LoadedProject :=
  (LoadedProject.load disk input).mapError fun e => .conversion (.load e)

/-- There is something to convert in a file. -/
def needsWork (analysis : FileAnalysis) : Bool :=
  analysis.stats.appliedRules != 0 || !analysis.usages.isEmpty

/-- What is printed of one file. -/
def analysisLines (analysis : FileAnalysis) : List String :=
  let component := (analysis.component.map fun summary => " (" ++ summary.name ++ ")").getD ""
  [analysis.path ++ component,
   "  " ++ toString analysis.stats.appliedRules ++ " of " ++ toString analysis.stats.totalRules
     ++ " rules match (" ++ analysis.stats.rate.percentage 0 ++ ")"]
    ++ analysis.usages.map fun (component, usage) =>
      "  ↳ " ++ component.tag ++ " × " ++ toString usage.count

/-- What is printed of all files. -/
def overviewLines (project : Project) (analyses : List FileAnalysis) : List String :=
  let work := analyses.filter needsWork
  ["📊 Analysis Results", rule, "",
   "Files: " ++ toString project.length,
   "Source files: " ++ toString analyses.length,
   ""]
    ++ work.flatMap analysisLines
    ++ ["",
        if work.isEmpty then "✅ Nothing to convert!"
        else toString work.length ++ " files need conversion"]

/-- Tells what a migration of a project would meet. -/
def analyze (input : String) (disk : Disk) : Outcome :=
  (Outcome.print ["Analyzing project...", ""] disk).andThen <|
    Outcome.require (loadProject disk input) fun loaded =>
      Outcome.require ((FileAnalysis.ofProject RuleSet.builtin loaded.project).mapError .unreadableFile)
        fun analyses => .print (overviewLines loaded.project analyses)

/-- A text with blanks behind it up to a width. -/
def padded (width : Nat) (s : String) : String :=
  s ++ String.ofList (List.replicate (width - s.length) ' ')

/-- The row of a route. -/
def routeRow (route : TargetRoute) : String :=
  padded 30 route.legacyPath ++ " → " ++ padded 30 route.path ++ " " ++ route.file

/-- The routes of a project. -/
def routeLines (routes : List Route) : List String :=
  if routes.isEmpty then ["No pages/ directory found"]
  else
    let handlers := routes.countP fun route => Text.startsWith route.path.toList "/api/".toList
    ["Route Table", rule]
      ++ (TargetRoute.ofRoutes routes).map routeRow
      ++ if handlers = 0 then [] else ["", toString handlers ++ " API routes need a server runtime"]

/-- Tells the routes of a project. -/
def routes (input : String) (disk : Disk) : Outcome :=
  Outcome.require (loadProject disk input)
    (fun loaded => .print (routeLines (Route.table loaded.project.paths))) disk

/-! ## The program -/

/-- The name and version of the program. -/
def versionLine : String := "next2vite 0.1.0"

/-- The line that says how the program is used. -/
def usageLine : String := "Usage: next2vite [OPTIONS] <convert|analyze|routes>"

/-- Executes a command. -/
def execute : Command → Disk → Outcome
  | .convert arguments => convert arguments
  | .analyze input => analyze input
  | .routes input => routes input
  | .version => .print [versionLine]
  | .help => .print [usageLine]

/-- Executes a command line. -/
def run (arguments : List String) (disk : Disk) : Outcome :=
  match parse? arguments with
  | some command => execute command disk
  | none => .fail .usage disk

end SpaMigration.Cli
