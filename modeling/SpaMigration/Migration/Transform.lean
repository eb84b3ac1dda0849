import SpaMigration.Migration.Result
import SpaMigration.Project
import SpaMigration.Rule.Basic
import SpaMigration.Syntax.Parse

/-!
# Applying rules to a project

The rules are applied to every source file that can be read and parsed. Files are worked on in batches,
which the reports of progress show; what becomes of a file depends on the file alone.
-/
namespace SpaMigration

open Pattern (cat text oneOf noneOf many)

/-- Why a file was not transformed. -/
inductive FileError where
  | unreadable (cause : ReadError)
  | notAProgram (path : String)
  deriving DecidableEq, Repr

namespace FileError

/-- The error for the reader. -/
def message : FileError → String
  | .unreadable cause => cause.message
  | .notAProgram path => "Failed to parse " ++ path ++ ": syntax error"

end FileError

/-- A source file and what the rules made of it. -/
structure TransformedFile where
  path : String
  before : String
  content : String
  applied : List String
  deriving DecidableEq, Repr

namespace TransformedFile

/-- The text is another one, and a rule accounts for it. -/
def isModified (file : TransformedFile) : Bool :=
  file.content != file.before && !file.applied.isEmpty

/-- What was done to the file, for the reader. -/
def detail (file : TransformedFile) : String :=
  "Transformations in file: " ++ file.path ++ "\n" ++ String.intercalate "\n" file.applied

/-- The file among the outputs of a run. -/
def output (file : TransformedFile) : ModifiedFile := ⟨file.path, file.content, file.applied⟩

end TransformedFile

/-- A line with nothing but a comment, with its line end. -/
def commentLine : Pattern :=
  cat [.anchor .lineStart, many (oneOf " \t"), text "//", many (noneOf "\n"), text "\n"]

/-- How files are transformed. -/
structure Transformer where
  rules : RuleSet
  preserveComments : Bool := true
  batchSize : Nat := 5

namespace Transformer

/-- The text after the rules. Lines of comments go when a rule was applied and they are not to be kept. -/
def transformText (t : Transformer) (code : List Char) : RuleOutcome :=
  let outcome := t.rules.applyAll code
  if t.preserveComments || outcome.applied.isEmpty then outcome
  else { outcome with text := commentLine.replaceAll (fun _ => []) outcome.text }

/-- A file after the rules, or nothing when it is no source to be transformed. -/
def transformFile (t : Transformer) (file : ProjectFile) : Except FileError (Option TransformedFile) :=
  if (ProjectPath.sourceKind? file.path).isNone || ProjectPath.isSkipped file.path then .ok none
  else
    match file.read with
    | .error cause => .error (.unreadable cause)
    | .ok before =>
      if (Syntax.parse? (.ofPath file.path) before.toList).isNone then .error (.notAProgram file.path)
      else
        let outcome := t.transformText before.toList
        .ok (some ⟨file.path, before, String.ofList outcome.text, outcome.applied⟩)

/-- The files that were changed, and a warning for each one that failed. -/
structure BatchOutcome where
  modified : List TransformedFile
  records : List Diagnostic

/-- The outcome of one file. -/
def fileOutcome (t : Transformer) (file : ProjectFile) : BatchOutcome :=
  match t.transformFile file with
  | .ok (some transformed) => ⟨if transformed.isModified then [transformed] else [], []⟩
  | .ok none => ⟨[], []⟩
  | .error e =>
    ⟨[], [.warningIn file.path "FILE_TRANSFORM_ERROR" ("Failed to transform file: " ++ e.message)]⟩

/-- The outcome of a batch, in the order of its files. -/
def batchOutcome (t : Transformer) (batch : List ProjectFile) : BatchOutcome :=
  let outcomes := batch.map t.fileOutcome
  ⟨outcomes.flatMap (·.modified), outcomes.flatMap (·.records)⟩

/-- The files in stretches of a size of at least one. -/
def batches {α : Type} (size : Nat) : Nat → List α → List (List α)
  | 0, _ => []
  | _ + 1, [] => []
  | fuel + 1, file :: rest =>
    (file :: rest.take (size - 1)) :: batches size fuel (rest.drop (size - 1))

end Transformer

/-- What the rules did to a project. -/
structure TransformSummary where
  outputs : List ModifiedFile
  details : List String
  /-- How many files were done after each batch, of how many. -/
  progress : List (Nat × Nat)
  records : List Diagnostic
  totalFiles : Nat

namespace TransformSummary

/-- The files that were changed. -/
def transformedFiles (summary : TransformSummary) : List String := summary.outputs.map (·.path)

/-- The share of the files that were changed. -/
def rate (summary : TransformSummary) : Share := .ofCounts summary.outputs.length summary.totalFiles

end TransformSummary

namespace Transformer

/-- How many files are done after each of several batches. -/
def doneAfter {α : Type} (total : Nat) : Nat → List (List α) → List (Nat × Nat)
  | _, [] => []
  | done, batch :: rest => (done + batch.length, total) :: doneAfter total (done + batch.length) rest

/-- Transforms every file of a project, batch after batch. -/
def transform (t : Transformer) (project : Project) : TransformSummary :=
  let all := batches t.batchSize project.length project
  let outcomes := all.map t.batchOutcome
  let modified := outcomes.flatMap (·.modified)
  { outputs := modified.map (·.output)
    details := modified.map (·.detail)
    progress := doneAfter project.length 0 all
    records := outcomes.flatMap (·.records)
    totalFiles := project.length }

end Transformer

end SpaMigration
