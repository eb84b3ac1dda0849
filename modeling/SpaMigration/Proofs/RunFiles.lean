import Mathlib.Tactic.Common
import SpaMigration.Migration.Run

/-!
# The files of a run

Which files a run makes and changes, stage by stage. The paths of the files that it makes are fixed by the
options, whatever the project holds; the files that it changes are files of the project, and the manifest.
-/
namespace SpaMigration

namespace MigrationState

variable (state : MigrationState)

@[simp] lemma report_result (percent : Nat) (message : String) :
    (state.report percent message).result = state.result := rfl

@[simp] lemma report_outputs (percent : Nat) (message : String) :
    (state.report percent message).outputs = state.outputs := rfl

@[simp] lemma addRecords_result (records : List Diagnostic) :
    (state.addRecords records).result = state.result := rfl

@[simp] lemma inform_newFiles (line : String) :
    (state.inform line).result.newFiles = state.result.newFiles := rfl

end MigrationState

namespace Transformer

lemma mem_of_mem_batches {α : Type} {size fuel : Nat} {files batch : List α} {file : α}
    (hbatch : batch ∈ batches size fuel files) (hfile : file ∈ batch) : file ∈ files := by
  fun_induction batches size fuel files with
  | case1 => simp at hbatch
  | case2 => simp at hbatch
  | case3 fuel first rest ih =>
    rcases List.mem_cons.mp hbatch with rfl | hlater
    · exact List.mem_of_mem_take (i := size - 1 + 1) (by simpa using hfile)
    · exact List.mem_cons_of_mem _ (List.mem_of_mem_drop (ih hlater))

lemma path_of_transformFile {t : Transformer} {file : ProjectFile} {transformed : TransformedFile}
    (h : t.transformFile file = .ok (some transformed)) : transformed.path = file.path := by
  simp only [transformFile] at h
  split_ifs at h
  · simp at h
  · split at h
    · simp at h
    · split_ifs at h
      simp only [Except.ok.injEq, Option.some.injEq] at h
      rw [← h]

/-- The rules change files of the project only. -/
lemma path_mem_of_mem_transform {t : Transformer} {project : Project} {output : ModifiedFile}
    (h : output ∈ (t.transform project).outputs) : output.path ∈ project.paths := by
  obtain ⟨transformed, hmodified, rfl⟩ := List.mem_map.mp h
  obtain ⟨outcome, houtcome, hin⟩ := List.mem_flatMap.mp hmodified
  obtain ⟨batch, hbatch, rfl⟩ := List.mem_map.mp houtcome
  obtain ⟨ofFile, hofFile, hin⟩ := List.mem_flatMap.mp hin
  obtain ⟨file, hfile, rfl⟩ := List.mem_map.mp hofFile
  have hpath : transformed.path = file.path := by
    simp only [fileOutcome] at hin
    split at hin
    case _ other hother =>
      have hsame : transformed = other := by
        split_ifs at hin
        · simpa using hin
        · simp at hin
      exact hsame ▸ path_of_transformFile hother
    · simp at hin
    · simp at hin
  exact List.mem_map.mpr ⟨file, mem_of_mem_batches hbatch hfile, hpath.symm⟩

end Transformer

namespace ReplaceStage

lemma path_mem_of_mem_putOutput {path content : String} {changes : List String}
    {outputs : List ModifiedFile} {output : ModifiedFile}
    (h : output ∈ putOutput path content changes outputs) :
    output.path = path ∨ ∃ other ∈ outputs, output.path = other.path := by
  induction outputs with
  | nil => simp_all [putOutput]
  | cons first rest ih =>
    simp only [putOutput] at h
    split_ifs at h with hfirst
    · rcases List.mem_cons.mp h with rfl | hrest
      · exact .inr ⟨first, by simp, rfl⟩
      · exact .inr ⟨output, List.mem_cons_of_mem _ hrest, rfl⟩
    · rcases List.mem_cons.mp h with rfl | hrest
      · exact .inr ⟨output, by simp, rfl⟩
      · rcases ih hrest with hpath | ⟨other, hother, hpath⟩
        · exact .inl hpath
        · exact .inr ⟨other, List.mem_cons_of_mem _ hother, hpath⟩

/-- Replacing components in a file changes no other one. -/
lemma path_mem_of_mem_step {options : ReplacementOptions} {stage : ReplaceStage} {file : ProjectFile}
    {output : ModifiedFile} (h : output ∈ (step options stage file).outputs) :
    output.path = file.path ∨ ∃ other ∈ stage.outputs, output.path = other.path := by
  simp only [step, replaceIn] at h
  split_ifs at h
  · exact .inr ⟨output, h, rfl⟩
  · split at h
    · split_ifs at h
      · exact .inr ⟨output, h, rfl⟩
      · exact .inr ⟨output, h, rfl⟩
      · exact path_mem_of_mem_putOutput h
    · exact .inr ⟨output, h, rfl⟩

lemma path_mem_of_mem_run {options : ReplacementOptions} {project : Project} {outputs : List ModifiedFile}
    (hin : ∀ output ∈ outputs, output.path ∈ project.paths) :
    ∀ output ∈ (run options project outputs).outputs, output.path ∈ project.paths := by
  -- Every step keeps the outputs inside the project, for any part of its files.
  have hsteps : ∀ files : Project, (∀ file ∈ files, file.path ∈ project.paths) →
      ∀ stage : ReplaceStage, (∀ output ∈ stage.outputs, output.path ∈ project.paths) →
        ∀ output ∈ (files.foldl (step options) stage).outputs, output.path ∈ project.paths := by
    intro files hfiles
    induction files with
    | nil => exact fun stage hstage => hstage
    | cons file rest ih =>
      intro stage hstage
      refine ih (fun other ho => hfiles other (List.mem_cons_of_mem _ ho)) _ fun output ho => ?_
      rcases path_mem_of_mem_step ho with hpath | ⟨other, hother, hpath⟩
      · exact hpath ▸ hfiles file List.mem_cons_self
      · exact hpath ▸ hstage other hother
  exact hsteps project (fun file hfile => List.mem_map_of_mem hfile) _ hin

end ReplaceStage

lemma RouteGuard.path_of_ofProject {project : Project} {targetSyntax : TargetSyntax} {guard : Outcome}
    (h : ofProject project targetSyntax = .ok (some guard)) :
    guard.file.path = "src/components/RouteGuard." ++ targetSyntax.markupExtension := by
  simp only [ofProject] at h
  split at h
  · simp at h
  case _ file _ =>
    cases hread : file.read with
    | error e => simp [hread, bind, Except.bind] at h
    | ok code =>
      simp only [hread, bind, Except.bind, pure, Except.pure, Except.ok.injEq, Option.some.injEq] at h
      rw [← h]
      rfl

namespace Migration

/-- What is known about the files of a run in progress: the paths of the files made so far and of the
changed files that are not in the project, up to files left out, and that the outputs are in the project. -/
structure FilesSoFar (input : MigrationInput) (state : MigrationState) (made changed : List String) :
    Prop where
  newFiles : (state.result.newFiles.map (·.path)).Sublist made
  modifiedFiles : ((state.result.modifiedFiles.filter fun file =>
    (input.project.get? file.path).isNone).map (·.path)).Sublist changed
  outputs : ∀ output ∈ state.outputs, output.path ∈ input.project.paths

variable {input : MigrationInput} {state : MigrationState} {made changed : List String}

lemma FilesSoFar.applySurvey (h : FilesSoFar input state made []) (survey : DependencySurvey) :
    FilesSoFar input (applySurvey input state survey) made ["package.json"] := by
  have hmanifest : ((input.manifest.toList.map
      (manifestOutput · survey input.options.target)).map (·.path)).Sublist ["package.json"] := by
    cases input.manifest <;> simp [manifestOutput]
  have hmodified := h.modifiedFiles.append ((List.filter_sublist (p := fun file : ModifiedFile =>
    (input.project.get? file.path).isNone)).map (·.path) |>.trans hmanifest)
  rw [← List.map_append, ← List.filter_append] at hmodified
  simp only [Migration.applySurvey]
  split_ifs <;> exact ⟨h.newFiles, hmodified, h.outputs⟩

/-- The first stage changes the manifest at most. -/
lemma FilesSoFar.dependencyStage (h : FilesSoFar input state made []) :
    FilesSoFar input (dependencyStage input state) made ["package.json"] := by
  have hweaker := h.modifiedFiles.trans (List.nil_sublist ["package.json"])
  simp only [Migration.dependencyStage]
  split_ifs
  · have hreported : FilesSoFar input (state.report 10 "Analyzing dependencies...") made [] :=
      ⟨h.newFiles, h.modifiedFiles, h.outputs⟩
    split
    · exact hreported.applySurvey _
    · exact ⟨h.newFiles, hweaker, h.outputs⟩
  · exact ⟨h.newFiles, hweaker, h.outputs⟩

/-- The second stage makes the router at most. -/
lemma FilesSoFar.routeStage (h : FilesSoFar input state made changed) :
    FilesSoFar input (routeStage input state)
      (made ++ ["src/router." ++ input.options.targetSyntax.markupExtension]) changed := by
  simp only [Migration.routeStage]
  split_ifs with huse hempty
  · refine ⟨?_, h.modifiedFiles, h.outputs⟩
    simpa using h.newFiles.trans (List.sublist_append_left _ _)
  · refine ⟨?_, h.modifiedFiles, h.outputs⟩
    simpa [RouterModule.render] using h.newFiles
  · exact ⟨h.newFiles.trans (List.sublist_append_left _ _), h.modifiedFiles, h.outputs⟩

lemma foldl_reportBatch_result (state : MigrationState) (batches : List (Nat × Nat)) :
    (batches.foldl reportBatch state).result = state.result := by
  induction batches generalizing state with
  | nil => rfl
  | cons batch rest ih => exact (ih _).trans rfl

/-- The rules make no files and have files of the project for their outputs. -/
lemma FilesSoFar.transformStage (h : FilesSoFar input state made changed) :
    FilesSoFar input (transformStage input state) made changed := by
  refine ⟨?_, ?_, fun output ho => Transformer.path_mem_of_mem_transform ho⟩
  · simpa [Migration.transformStage, foldl_reportBatch_result] using h.newFiles
  · simpa [Migration.transformStage, foldl_reportBatch_result] using h.modifiedFiles

lemma FilesSoFar.apiStage (h : FilesSoFar input state made changed) :
    FilesSoFar input (apiStage input state) made changed := by
  simp only [Migration.apiStage]
  split_ifs
  · exact ⟨h.newFiles, h.modifiedFiles, h.outputs⟩
  · exact h

/-- Replacing components makes no files and changes files of the project. -/
lemma FilesSoFar.componentStage (h : FilesSoFar input state made changed) :
    FilesSoFar input (componentStage input state) made changed := by
  simp only [Migration.componentStage]
  split_ifs
  · exact ⟨h.newFiles, h.modifiedFiles, ReplaceStage.path_mem_of_mem_run h.outputs⟩
  · exact ⟨h.newFiles, h.modifiedFiles, ReplaceStage.path_mem_of_mem_run h.outputs⟩
  · exact h

/-- The guard is the only file made in place of middleware. -/
lemma FilesSoFar.guardStage (h : FilesSoFar input state made changed) :
    FilesSoFar input (guardStage input state)
      (made ++ ["src/components/RouteGuard." ++ input.options.targetSyntax.markupExtension]) changed := by
  have hweaker := h.newFiles.trans (List.sublist_append_left made
    ["src/components/RouteGuard." ++ input.options.targetSyntax.markupExtension])
  simp only [Migration.guardStage]
  split_ifs
  · split
    · exact ⟨hweaker, h.modifiedFiles, h.outputs⟩
    case _ guard hguard =>
      refine ⟨?_, h.modifiedFiles, h.outputs⟩
      simpa [RouteGuard.path_of_ofProject hguard] using h.newFiles
    · exact ⟨hweaker, h.modifiedFiles, h.outputs⟩
  · exact ⟨hweaker, h.modifiedFiles, h.outputs⟩

lemma FilesSoFar.foldl_addDeployment (h : FilesSoFar input state made changed)
    (templates : List (Platform × GeneratedFile)) :
    FilesSoFar input (templates.foldl addDeployment state) (made ++ templates.map (·.2.path)) changed := by
  induction templates generalizing state made with
  | nil => simpa using h
  | cons template rest ih =>
    have hfirst : FilesSoFar input (addDeployment state template) (made ++ [template.2.path]) changed := by
      refine ⟨?_, h.modifiedFiles, h.outputs⟩
      simpa [addDeployment] using h.newFiles
    simpa using ih hfirst

lemma FilesSoFar.deploymentStage (h : FilesSoFar input state made changed) :
    FilesSoFar input (deploymentStage input state)
      (made ++ (Deployment.files input.options.target).map (·.2.path)) changed := by
  simp only [Migration.deploymentStage]
  split_ifs
  · refine FilesSoFar.foldl_addDeployment ?_ _
    exact ⟨h.newFiles, h.modifiedFiles, h.outputs⟩
  · exact ⟨h.newFiles.trans (List.sublist_append_left _ _), h.modifiedFiles, h.outputs⟩

lemma get?_isNone_eq_false {project : Project} {path : String} (h : path ∈ project.paths) :
    (project.get? path).isNone = false := by
  obtain ⟨file, hfile, rfl⟩ := List.mem_map.mp h
  simp only [Project.get?, Option.isNone_eq_false_iff, List.find?_isSome]
  exact ⟨file, hfile, by simp⟩

/-- The outputs join the changed files at the end, and they are all in the project. -/
lemma FilesSoFar.finishStage (h : FilesSoFar input state made changed) :
    FilesSoFar input (finishStage input state) made changed := by
  refine ⟨h.newFiles, ?_, h.outputs⟩
  have hnone : state.outputs.filter (fun file => (input.project.get? file.path).isNone) = [] :=
    List.filter_eq_nil_iff.mpr fun output ho => by simp [get?_isNone_eq_false (h.outputs output ho)]
  simpa [Migration.finishStage, List.filter_append, hnone] using h.modifiedFiles

/-- The paths of all files that a run may make, in the order in which it makes them. -/
def generatedPaths (targetSyntax : TargetSyntax) : List String :=
  ["src/router." ++ targetSyntax.markupExtension,
   "src/components/RouteGuard." ++ targetSyntax.markupExtension,
   "vercel.json", "netlify.toml", ".github/workflows/main.yml", "Dockerfile", "nginx.conf"]

/-- What a whole run adds: files at some of the fixed paths, and outside the project the manifest alone. -/
theorem run_files (input : MigrationInput) :
    ((run input).1.newFiles.map (·.path)).Sublist (generatedPaths input.options.targetSyntax) ∧
    (((run input).1.modifiedFiles.filter fun file => (input.project.get? file.path).isNone).map
      (·.path)).Sublist ["package.json"] := by
  have hstart : FilesSoFar input
      (({ result := .start input.project.length } : MigrationState).report 5
        "Starting: analyzing project...") [] [] := ⟨.slnil, .slnil, by simp⟩
  have hrun :=
    hstart.dependencyStage.routeStage.transformStage.apiStage.componentStage.guardStage.deploymentStage.finishStage
  exact ⟨hrun.newFiles, hrun.modifiedFiles⟩

end Migration

end SpaMigration
