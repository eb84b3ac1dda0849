import SpaMigration.ApiRoute
import SpaMigration.Dependency.Survey
import SpaMigration.Deployment
import SpaMigration.Migration.Replace
import SpaMigration.Migration.Transform
import SpaMigration.RouteGuard
import SpaMigration.Route.RouterModule
import SpaMigration.Rule.Builtin

/-!
# A run of the migration

The stages of a run follow one another in a fixed order, each one switched by the options. A stage that
fails leaves a warning and the next one still runs.
-/
namespace SpaMigration

/-- What a run works on. -/
structure MigrationInput where
  project : Project
  /-- The manifest of the project, if it has one. -/
  manifest : Option Json := none
  options : Options := {}
  replacement : ReplacementOptions := {}

/-- A run in progress. -/
structure MigrationState where
  result : MigrationResult
  records : List Diagnostic := []
  /-- The percentages reported so far, with their messages. -/
  progress : List (Nat × String) := []
  /-- The project files changed so far. -/
  outputs : List ModifiedFile := []

namespace MigrationState

/-- The last percentage that was reported. -/
def percent (state : MigrationState) : Nat := (state.progress.getLast?.map (·.1)).getD 0

/-- Reports progress, which never goes back nor past one hundred. -/
def report (state : MigrationState) (percent : Nat) (message : String) : MigrationState :=
  { state with progress := state.progress ++ [(max state.percent (min percent 100), message)] }

/-- Adds records. -/
def addRecords (state : MigrationState) (records : List Diagnostic) : MigrationState :=
  { state with records := state.records ++ records }

/-- A stage failed: the run goes on with a warning. -/
def settle (state : MigrationState) (stage message : String) : MigrationState :=
  state.addRecords [.warning "STAGE_FAILED" ("Error " ++ stage ++ ": " ++ message)]

/-- Adds a line of information. -/
def inform (state : MigrationState) (line : String) : MigrationState :=
  { state with result := { state.result with info := state.result.info ++ [line] } }

end MigrationState

namespace Migration

open MigrationState

/-- The manifest after the changes, among the files that were changed. -/
def manifestOutput (manifest : Json) (survey : DependencySurvey) (target : TargetStack) : ModifiedFile where
  path := "package.json"
  content := (Manifest.update manifest survey.changes target).pretty ++ "\n"
  changes := survey.changes.map (·.describe)

/-- Takes over what is to be done about the packages. -/
def applySurvey (input : MigrationInput) (state : MigrationState) (survey : DependencySurvey) :
    MigrationState :=
  let state := state.addRecords (survey.issues.map (Diagnostic.warning "DEPENDENCY_INCOMPATIBLE" ·))
  let state := if survey.commands.isEmpty then state
    else state.inform ("Installation commands:\n" ++ survey.commands)
  let manifests := input.manifest.toList.map (manifestOutput · survey input.options.target)
  { state with result :=
      { state.result with
        modifiedFiles := state.result.modifiedFiles ++ manifests
        stats := { state.result.stats with dependencyChanges := survey.changes.length }
        dependencies := survey.changes } }

/-- Compares the manifest with what the target needs. -/
def dependencyStage (input : MigrationInput) (state : MigrationState) : MigrationState :=
  if input.options.updateDependencies then
    let state := state.report 10 "Analyzing dependencies..."
    match DependencySurvey.ofManifest input.manifest input.options.target with
    | .ok survey => applySurvey input state survey
    | .error e => state.settle "analyzing dependencies" e.message
  else state

/-- Finds the routes and makes the router. -/
def routeStage (input : MigrationInput) (state : MigrationState) : MigrationState :=
  if input.options.useRouter then
    let state := state.report 20 "Analyzing routes..."
    let routes := Route.table input.project.paths
    let targets := TargetRoute.ofRoutes routes
    let router := if targets.isEmpty then [] else [RouterModule.render targets input.options.targetSyntax]
    { state with result :=
        { state.result with
          newFiles := state.result.newFiles ++ router
          stats := { state.result.stats with routeChanges := routes.length }
          routes } }
  else state

/-- The part of the progress that belongs to the rules: where it starts and ends. -/
def transformStart : Nat := 30

@[inherit_doc transformStart]
def transformEnd : Nat := 75

/-- The transformer that the options ask for. -/
def transformerFor (options : Options) : Transformer :=
  { rules := RuleSet.forOptions options
    preserveComments := options.preserveComments
    batchSize := options.batchSize }

/-- Reports that some of the files are transformed. -/
def reportBatch (state : MigrationState) (batch : Nat × Nat) : MigrationState :=
  let (done, total) := batch
  state.report (transformStart + (transformEnd - transformStart) * done / max total 1)
    ("Transformed " ++ toString done ++ "/" ++ toString total ++ " files")

/-- Applies the rules to every file. -/
def transformStage (input : MigrationInput) (state : MigrationState) : MigrationState :=
  let state := state.report transformStart "Transforming files..."
  let summary := (transformerFor input.options).transform input.project
  let state := (summary.progress.foldl reportBatch state).addRecords summary.records
  { state with
    outputs := summary.outputs
    result :=
      { state.result with
        info := state.result.info ++ summary.details
        transformedFiles := summary.transformedFiles } }

/-- Reports the request handlers. -/
def apiStage (input : MigrationInput) (state : MigrationState) : MigrationState :=
  if input.options.convertApiRoutes then
    let state := state.report 75 "Converting API routes..."
    let (routes, records) := ApiRoute.survey input.project
    (state.addRecords records).inform (toString routes.length ++ " API routes identified for conversion")
  else state

/-- The files with the ones of replacements added that are not among them. -/
def addReplaced (files : List String) (replacements : List ComponentReplacement) : List String :=
  replacements.foldl (fun files r => if files.contains r.file then files else files ++ [r.file]) files

/-- Replaces components in every file. -/
def componentStage (input : MigrationInput) (state : MigrationState) : MigrationState :=
  if input.options.replaceComponents then
    let state := state.report 85 "Replacing Next.js components..."
    let stage := ReplaceStage.run input.replacement input.project state.outputs
    let state := { state.addRecords stage.records with outputs := stage.outputs }
    if stage.completed then
      let result :=
        { state.result with
          transformedFiles := addReplaced state.result.transformedFiles stage.replacements }
      { state with result }.inform
        ("Component replacement completed: " ++ toString stage.replacements.length
          ++ " components replaced")
    else
      state.settle "replacing components" "stage panicked: an edit cuts through a character"
  else state

/-- Makes the guard in place of middleware. -/
def guardStage (input : MigrationInput) (state : MigrationState) : MigrationState :=
  if input.options.handleMiddleware then
    let state := state.report 90 "Converting middleware..."
    match RouteGuard.ofProject input.project input.options.targetSyntax with
    | .ok none => state
    | .ok (some guard) =>
      let state := state.addRecords [guard.warning]
      { state with result :=
          { state.result with
            transformedFiles := state.result.transformedFiles ++ [guard.file.path]
            newFiles := state.result.newFiles ++ [guard.file] } }
    | .error e => state.settle "handling middleware" e.message
  else state

/-- Adds one file for deployment. -/
def addDeployment (state : MigrationState) (template : Platform × GeneratedFile) : MigrationState :=
  let (platform, file) := template
  let state := state.inform (platform.name ++ " configuration generated: " ++ file.path)
  { state with result := { state.result with newFiles := state.result.newFiles ++ [file] } }

/-- Makes the files for deployment. -/
def deploymentStage (input : MigrationInput) (state : MigrationState) : MigrationState :=
  if input.options.generateDeployConfigs then
    let state := state.report 95 "Generating CI/CD configurations..."
    (Deployment.files input.options.target).foldl addDeployment state
  else state

/-- Counts the files that were changed. -/
def finishStage (input : MigrationInput) (state : MigrationState) : MigrationState :=
  let modifiedFiles := state.result.modifiedFiles ++ state.outputs
  let count := input.project.countP fun file => modifiedFiles.any (·.path == file.path)
  { state with result :=
      { state.result with
        modifiedFiles
        stats :=
          { state.result.stats with
            modifiedFiles := count
            rate := .ofCounts count input.project.length } } }

/-- The stages in their order. -/
def stages : List (MigrationInput → MigrationState → MigrationState) :=
  [dependencyStage, routeStage, transformStage, apiStage, componentStage, guardStage, deploymentStage,
   finishStage]

/-- A whole run: the result and the progress that was reported. -/
def run (input : MigrationInput) : MigrationResult × List (Nat × String) :=
  let start : MigrationState := { result := .start input.project.length }
  let state := stages.foldl (fun state stage => stage input state)
    (start.report 5 "Starting: analyzing project...")
  (state.result.absorb state.records, (state.report 100 "Conversion completed!").progress)

end Migration

end SpaMigration
