import SpaMigration.Proofs.RunFiles

/-!
# What the stages of a run leave to each other

No stage takes back what stages before it have made or recorded: the new files and the records only grow.
The files that a run changes are the manifest and, after it, the outputs of the rules as the replacement of
components leaves them.
-/
namespace SpaMigration.Migration

/-- A run has gone on from one state to another without taking back new files or records. -/
structure Extends (before after : MigrationState) : Prop where
  newFiles : before.result.newFiles <+: after.result.newFiles
  records : before.records <+: after.records

namespace Extends

variable {input : MigrationInput} {state middle after : MigrationState}

lemma refl (state : MigrationState) : Extends state state :=
  ⟨List.prefix_rfl, List.prefix_rfl⟩

lemma trans (h : Extends state middle) (h' : Extends middle after) : Extends state after :=
  ⟨h.newFiles.trans h'.newFiles, h.records.trans h'.records⟩

lemma routeStage (input : MigrationInput) (state : MigrationState) :
    Extends state (routeStage input state) := by
  simp only [Migration.routeStage]
  split_ifs
  · exact ⟨List.prefix_append _ _, List.prefix_rfl⟩
  · exact ⟨List.prefix_append _ _, List.prefix_rfl⟩
  · exact refl state

lemma foldl_reportBatch_records (state : MigrationState) (batches : List (Nat × Nat)) :
    (batches.foldl reportBatch state).records = state.records := by
  induction batches generalizing state with
  | nil => rfl
  | cons batch rest ih => exact (ih _).trans rfl

lemma transformStage (input : MigrationInput) (state : MigrationState) :
    Extends state (transformStage input state) := by
  refine ⟨?_, ?_⟩
  · simp [Migration.transformStage, foldl_reportBatch_result]
  · simp only [Migration.transformStage, MigrationState.addRecords, foldl_reportBatch_records]
    exact List.prefix_append _ _

lemma apiStage (input : MigrationInput) (state : MigrationState) :
    Extends state (apiStage input state) := by
  simp only [Migration.apiStage]
  split_ifs
  · exact ⟨List.prefix_rfl, List.prefix_append _ _⟩
  · exact refl state

lemma componentStage (input : MigrationInput) (state : MigrationState) :
    Extends state (componentStage input state) := by
  simp only [Migration.componentStage]
  split_ifs
  · exact ⟨List.prefix_rfl, List.prefix_append _ _⟩
  · exact ⟨List.prefix_rfl, (List.prefix_append _ _).trans (List.prefix_append _ _)⟩
  · exact refl state

lemma guardStage (input : MigrationInput) (state : MigrationState) :
    Extends state (guardStage input state) := by
  simp only [Migration.guardStage]
  split_ifs
  · split
    · exact ⟨List.prefix_rfl, List.prefix_rfl⟩
    · exact ⟨List.prefix_append _ _, List.prefix_append _ _⟩
    · exact ⟨List.prefix_rfl, List.prefix_append _ _⟩
  · exact refl state

lemma foldl_addDeployment (state : MigrationState) (templates : List (Platform × GeneratedFile)) :
    Extends state (templates.foldl addDeployment state) := by
  induction templates generalizing state with
  | nil => exact refl state
  | cons template rest ih =>
    have hfirst : Extends state (addDeployment state template) :=
      ⟨List.prefix_append _ _, List.prefix_rfl⟩
    exact hfirst.trans (ih _)

lemma deploymentStage (input : MigrationInput) (state : MigrationState) :
    Extends state (deploymentStage input state) := by
  simp only [Migration.deploymentStage]
  split_ifs
  · have hreport : Extends state (state.report 95 "Generating CI/CD configurations...") :=
      ⟨List.prefix_rfl, List.prefix_rfl⟩
    exact hreport.trans (foldl_addDeployment _ _)
  · exact refl state

lemma finishStage (input : MigrationInput) (state : MigrationState) :
    Extends state (finishStage input state) :=
  ⟨List.prefix_rfl, List.prefix_rfl⟩

end Extends

/-- The state in which a run starts. -/
def initialState (input : MigrationInput) : MigrationState :=
  ({ result := .start input.project.length } : MigrationState).report 5 "Starting: analyzing project..."

/-- The state in which a run ends. -/
def finalState (input : MigrationInput) : MigrationState :=
  stages.foldl (fun state stage => stage input state) (initialState input)

lemma run_fst (input : MigrationInput) :
    (run input).1 = (finalState input).result.absorb (finalState input).records := rfl

/-- The state after the packages and the routes have been looked at. -/
def routedState (input : MigrationInput) : MigrationState :=
  routeStage input (dependencyStage input (initialState input))

/-- The state after the rules have been applied and the request handlers reported. -/
def surveyedState (input : MigrationInput) : MigrationState :=
  apiStage input (transformStage input (routedState input))

lemma finalState_eq (input : MigrationInput) : finalState input =
    finishStage input (deploymentStage input (guardStage input (componentStage input
      (surveyedState input)))) := rfl

lemma surveyedState_extends (input : MigrationInput) :
    Extends (surveyedState input) (finalState input) := by
  rw [finalState_eq]
  exact (Extends.componentStage _ _).trans <| (Extends.guardStage _ _).trans <|
    (Extends.deploymentStage _ _).trans (Extends.finishStage _ _)

lemma routedState_extends (input : MigrationInput) : Extends (routedState input) (finalState input) :=
  (Extends.transformStage _ _).trans <| (Extends.apiStage _ _).trans (surveyedState_extends input)

/-- A file that a stage up to the routes has made is a new file of the result. -/
lemma mem_run_newFiles {input : MigrationInput} {file : GeneratedFile}
    (h : file ∈ (routedState input).result.newFiles) : file ∈ (run input).1.newFiles :=
  (routedState_extends input).newFiles.subset h

/-- A warning that was recorded up to the report of the request handlers is a warning of the result. -/
lemma mem_run_warnings {input : MigrationInput} {record : Diagnostic}
    (h : record ∈ (surveyedState input).records) (hwarning : record.severity = .warning) :
    record.report ∈ (run input).1.warnings := by
  have hrecord := (surveyedState_extends input).records.subset h
  simp only [run_fst, MigrationResult.absorb, List.mem_append]
  refine .inr (List.mem_map_of_mem (List.mem_filter.mpr ⟨hrecord, ?_⟩))
  simp [hwarning]

/-- The manifest as the first stage changes it, if it does. -/
def changedManifest (input : MigrationInput) : List ModifiedFile :=
  if input.options.updateDependencies then
    match DependencySurvey.ofManifest input.manifest input.options.target with
    | .ok survey => input.manifest.toList.map (manifestOutput · survey input.options.target)
    | .error _ => []
  else []

/-- The outputs of the rules. -/
def ruleOutputs (input : MigrationInput) : List ModifiedFile :=
  ((transformerFor input.options).transform input.project).outputs

/-- The outputs of the rules after the replacement of components, if that is asked for. -/
def finalOutputs (input : MigrationInput) : List ModifiedFile :=
  if input.options.replaceComponents then
    (ReplaceStage.run input.replacement input.project (ruleOutputs input)).outputs
  else ruleOutputs input

lemma modifiedFiles_dependencyStage (input : MigrationInput) :
    (dependencyStage input (initialState input)).result.modifiedFiles = changedManifest input := by
  simp only [dependencyStage, changedManifest]
  split_ifs
  · cases DependencySurvey.ofManifest input.manifest input.options.target with
    | ok survey =>
      simp only [applySurvey]
      split_ifs <;> exact List.nil_append _
    | error e => rfl
  · rfl

lemma modifiedFiles_surveyedState (input : MigrationInput) :
    (surveyedState input).result.modifiedFiles = changedManifest input := by
  rw [← modifiedFiles_dependencyStage]
  simp only [surveyedState, routedState, apiStage, transformStage, routeStage, MigrationState.inform,
    MigrationState.addRecords, foldl_reportBatch_result]
  split_ifs <;> simp

lemma outputs_surveyedState (input : MigrationInput) :
    (surveyedState input).outputs = ruleOutputs input := by
  simp only [surveyedState, apiStage]
  split_ifs <;> rfl

lemma foldl_addDeployment_files (state : MigrationState) (templates : List (Platform × GeneratedFile)) :
    (templates.foldl addDeployment state).outputs = state.outputs ∧
    (templates.foldl addDeployment state).result.modifiedFiles = state.result.modifiedFiles := by
  induction templates generalizing state with
  | nil => exact ⟨rfl, rfl⟩
  | cons template rest ih => exact ih (addDeployment state template)

lemma deploymentStage_files (input : MigrationInput) (state : MigrationState) :
    (deploymentStage input state).outputs = state.outputs ∧
    (deploymentStage input state).result.modifiedFiles = state.result.modifiedFiles := by
  simp only [deploymentStage]
  split_ifs
  · exact foldl_addDeployment_files _ _
  · exact ⟨rfl, rfl⟩

lemma guardStage_files (input : MigrationInput) (state : MigrationState) :
    (guardStage input state).outputs = state.outputs ∧
    (guardStage input state).result.modifiedFiles = state.result.modifiedFiles := by
  simp only [guardStage]
  split_ifs
  · split <;> exact ⟨rfl, rfl⟩
  · exact ⟨rfl, rfl⟩

lemma componentStage_files (input : MigrationInput) {state : MigrationState}
    (h : state.outputs = ruleOutputs input) :
    (componentStage input state).outputs = finalOutputs input ∧
    (componentStage input state).result.modifiedFiles = state.result.modifiedFiles := by
  simp only [componentStage, finalOutputs]
  split_ifs
  · exact ⟨by rw [← h]; rfl, rfl⟩
  · exact ⟨by rw [← h]; rfl, rfl⟩
  · exact ⟨h, rfl⟩

/-- The files that a run changes: the manifest, and the outputs of the project's files. -/
theorem run_modifiedFiles (input : MigrationInput) :
    (run input).1.modifiedFiles = changedManifest input ++ finalOutputs input := by
  have hcomponents := componentStage_files input (outputs_surveyedState input)
  have hguard := guardStage_files input (componentStage input (surveyedState input))
  have hdeployment := deploymentStage_files input
    (guardStage input (componentStage input (surveyedState input)))
  simp only [run_fst, MigrationResult.absorb, finalState_eq, finishStage]
  rw [hdeployment.1, hdeployment.2, hguard.1, hguard.2, hcomponents.1, hcomponents.2,
    modifiedFiles_surveyedState]

end SpaMigration.Migration
