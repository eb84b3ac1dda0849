import SpaMigration.Component.Replace
import SpaMigration.ImportBlock
import SpaMigration.Migration.Result
import SpaMigration.Project

/-!
# Replacing components in a project

In each file with markup every component in use is replaced, one after another, and the imports of the
replacements are inserted at the end. A file that the rules have changed is taken as they left it.

A replacement may fail on a text that starts with a byte-order mark. Then nothing more is replaced; what was
done to the files before stays.
-/
namespace SpaMigration

/-- A file while its components are replaced. -/
structure FileReplacement where
  code : List Char
  imports : List String := []
  changes : List String := []
  replacements : List ComponentReplacement := []
  records : List Diagnostic := []

namespace FileReplacement

/-- The file after one component was replaced. -/
def record (state : FileReplacement) (path : String) (component : LegacyComponent) (count : Nat)
    (result : ReplacedText) : FileReplacement :=
  { code := result.code
    imports := state.imports ++ result.imports
    changes := state.changes ++
      ["Replaced " ++ component.tag ++ " component (" ++ toString count ++ " usages)"]
    replacements := state.replacements ++ [⟨path, component, count⟩]
    records := state.records ++ result.warnings.map
      (Diagnostic.warningIn path "COMPONENT_TRANSFORM_WARNING" ·) }

/-- Replaces components one after another, and tells whether that went to the end. -/
def replace (options : ReplacementOptions) (path : String) :
    List LegacyComponent → FileReplacement → FileReplacement × Bool
  | [], state => (state, true)
  | component :: rest, state =>
    let usage := ComponentUsage.ofText component state.code
    if usage.used then
      match component.replace? options state.code with
      | none => (state, false)
      | some result =>
        if result.code == state.code then replace options path rest state
        else replace options path rest (state.record path component usage.count result)
    else replace options path rest state

end FileReplacement

/-- The outputs of a run while components are replaced in its files. -/
structure ReplaceStage where
  outputs : List ModifiedFile
  replacements : List ComponentReplacement := []
  records : List Diagnostic := []
  /-- No replacement has failed. -/
  completed : Bool := true

namespace ReplaceStage

/-- The text of a file so far, if it can be read. -/
def currentText (outputs : List ModifiedFile) (file : ProjectFile) : Except ReadError String :=
  match outputs.find? (·.path == file.path) with
  | some output => .ok output.content
  | none => file.read

/-- Changes the first output of a path, or adds one. -/
def putOutput (path content : String) (changes : List String) : List ModifiedFile → List ModifiedFile
  | [] => [⟨path, content, changes⟩]
  | output :: rest =>
    if output.path == path then { output with content, changes := output.changes ++ changes } :: rest
    else output :: putOutput path content changes rest

/-- Replaces the components of a file whose text is known. -/
def replaceIn (options : ReplacementOptions) (file : ProjectFile) (text : String) (stage : ReplaceStage) :
    ReplaceStage :=
  let (state, completed) :=
    FileReplacement.replace options file.path LegacyComponent.all { code := text.toList }
  let records := stage.records ++ state.records
  if !completed then { stage with records, completed := false }
  else
    let outputs := if state.code == text.toList then stage.outputs
      else
        let final := String.ofList (ImportBlock.insert state.code state.imports)
        putOutput file.path final state.changes stage.outputs
    { stage with outputs, records, replacements := stage.replacements ++ state.replacements }

/-- Replaces the components of one file, if it has markup. -/
def step (options : ReplacementOptions) (stage : ReplaceStage) (file : ProjectFile) : ReplaceStage :=
  if !stage.completed || ProjectPath.isSkipped file.path || !ProjectPath.isMarkup file.path then stage
  else
    match currentText stage.outputs file with
    | .ok text => replaceIn options file text stage
    | .error e =>
      let problem := Diagnostic.warningIn file.path "FILE_TRANSFORM_ERROR"
        ("Failed to read file: " ++ e.message)
      { stage with records := stage.records ++ [problem] }

/-- Replaces the components of every file. -/
def run (options : ReplacementOptions) (project : Project) (outputs : List ModifiedFile) : ReplaceStage :=
  project.foldl (step options) { outputs }

end ReplaceStage

end SpaMigration
