import SpaMigration.Proofs.RunStages

/-!
# Stages that fail

A stage goes by what was made before it, and not by what was recorded or reported. A stage that fails before
it has made anything is therefore not noticed by the stages behind it: the run is the one in which the stage
is switched off, with one more warning.
-/
namespace SpaMigration

lemma Diagnostic.reports_append (severity : Severity) (first second : List Diagnostic) :
    reports severity (first ++ second) = reports severity first ++ reports severity second := by
  simp [reports, ofSeverity]

namespace Migration

/-- A stage of a run. -/
abbrev Stage := MigrationInput → MigrationState → MigrationState

/-- Two runs in progress have made the same, whatever they have recorded and reported. -/
structure MadeAlike (state other : MigrationState) : Prop where
  result : other.result = state.result
  outputs : other.outputs = state.outputs

/-- What is made of a run and added to its records depends only on what was made before. -/
structure GoesByMade (step : MigrationState → MigrationState) : Prop where
  alike : ∀ {state other}, MadeAlike state other → MadeAlike (step state) (step other) ∧
    ∃ added, (step state).records = state.records ++ added ∧ (step other).records = other.records ++ added

namespace GoesByMade

variable (input : MigrationInput)

lemma refl : GoesByMade fun state => state :=
  ⟨fun halike => ⟨halike, [], by simp, by simp⟩⟩

lemma comp {first second : MigrationState → MigrationState} (hfirst : GoesByMade first)
    (hsecond : GoesByMade second) : GoesByMade fun state => second (first state) := by
  refine ⟨fun {state other} halike => ?_⟩
  obtain ⟨hmiddle, early, hstate, hother⟩ := hfirst.alike halike
  obtain ⟨hend, late, hstate', hother'⟩ := hsecond.alike hmiddle
  refine ⟨hend, early ++ late, ?_, ?_⟩
  · rw [hstate', hstate, List.append_assoc]
  · rw [hother', hother, List.append_assoc]

lemma foldl {α : Type} {step : MigrationState → α → MigrationState} {items : List α}
    (h : ∀ item ∈ items, GoesByMade (step · item)) : GoesByMade fun state => items.foldl step state := by
  induction items with
  | nil => exact refl
  | cons item rest ih =>
    exact (h item List.mem_cons_self).comp (ih fun next hnext => h next (List.mem_cons_of_mem _ hnext))

/-- It is enough to look at runs that differ in their records and reports. -/
lemma of_forall {step : MigrationState → MigrationState}
    (h : ∀ result outputs records progress records' progress', ∃ added,
      MadeAlike (step ⟨result, records, progress, outputs⟩) (step ⟨result, records', progress', outputs⟩) ∧
      (step ⟨result, records, progress, outputs⟩).records = records ++ added ∧
      (step ⟨result, records', progress', outputs⟩).records = records' ++ added) : GoesByMade step := by
  constructor
  rintro ⟨_, records, progress, _⟩ ⟨result, records', progress', outputs⟩ ⟨rfl, rfl⟩
  obtain ⟨added, halike, hrecords, hrecords'⟩ := h result outputs records progress records' progress'
  exact ⟨halike, added, hrecords, hrecords'⟩

lemma switched (on : Bool) {step : MigrationState → MigrationState} (h : GoesByMade step) :
    GoesByMade fun state => if on then step state else state := by
  cases on
  · simpa using refl
  · simpa using h

lemma report (percent : Nat) (message : String) : GoesByMade (·.report percent message) :=
  .of_forall fun _ _ _ _ _ _ => ⟨[], ⟨rfl, rfl⟩, (List.append_nil _).symm, (List.append_nil _).symm⟩

lemma dependencyStage : GoesByMade (Migration.dependencyStage input) := by
  refine switched _ <| .of_forall fun result outputs records progress records' progress' => ?_
  cases DependencySurvey.ofManifest input.manifest input.options.target with
  | ok survey =>
    simp only [applySurvey]
    split_ifs <;> exact ⟨_, ⟨rfl, rfl⟩, rfl, rfl⟩
  | error e => exact ⟨_, ⟨rfl, rfl⟩, rfl, rfl⟩

lemma routeStage : GoesByMade (Migration.routeStage input) :=
  switched _ <| .of_forall fun _ _ _ _ _ _ =>
    ⟨[], ⟨rfl, rfl⟩, (List.append_nil _).symm, (List.append_nil _).symm⟩

lemma transformStage : GoesByMade (Migration.transformStage input) := by
  refine .of_forall fun result outputs records progress records' progress' => ?_
  simp only [Migration.transformStage, MigrationState.addRecords, foldl_reportBatch_result,
    Extends.foldl_reportBatch_records]
  exact ⟨_, ⟨rfl, rfl⟩, rfl, rfl⟩

lemma apiStage : GoesByMade (Migration.apiStage input) :=
  switched _ <| .of_forall fun _ _ _ _ _ _ => ⟨_, ⟨rfl, rfl⟩, rfl, rfl⟩

lemma componentStage : GoesByMade (Migration.componentStage input) := by
  refine switched _ <| .of_forall fun result outputs records progress records' progress' => ?_
  simp only [MigrationState.report_outputs]
  by_cases hcompleted : (ReplaceStage.run input.replacement input.project outputs).completed = true
  · simp only [hcompleted, if_true]
    exact ⟨_, ⟨rfl, rfl⟩, rfl, rfl⟩
  · simp only [hcompleted, Bool.false_eq_true, if_false]
    exact ⟨_, ⟨rfl, rfl⟩, List.append_assoc _ _ _, List.append_assoc _ _ _⟩

lemma guardStage : GoesByMade (Migration.guardStage input) := by
  refine switched _ <| .of_forall fun result outputs records progress records' progress' => ?_
  match RouteGuard.ofProject input.project input.options.targetSyntax with
  | .ok none => exact ⟨[], ⟨rfl, rfl⟩, (List.append_nil _).symm, (List.append_nil _).symm⟩
  | .ok (some guard) => exact ⟨_, ⟨rfl, rfl⟩, rfl, rfl⟩
  | .error e => exact ⟨_, ⟨rfl, rfl⟩, rfl, rfl⟩

lemma addDeployment (template : Platform × GeneratedFile) : GoesByMade (Migration.addDeployment · template) :=
  .of_forall fun _ _ _ _ _ _ => ⟨[], ⟨rfl, rfl⟩, (List.append_nil _).symm, (List.append_nil _).symm⟩

lemma deploymentStage : GoesByMade (Migration.deploymentStage input) :=
  switched _ <| (report 95 "Generating CI/CD configurations...").comp <|
    foldl fun template _ => addDeployment template

lemma finishStage : GoesByMade (Migration.finishStage input) :=
  .of_forall fun _ _ _ _ _ _ => ⟨[], ⟨rfl, rfl⟩, (List.append_nil _).symm, (List.append_nil _).symm⟩

/-- Every stage goes by what was made before it. -/
theorem of_mem_stages {stage : Stage} (h : stage ∈ stages) : GoesByMade (stage input) := by
  simp only [stages, List.mem_cons, List.not_mem_nil, or_false] at h
  rcases h with rfl | rfl | rfl | rfl | rfl | rfl | rfl | rfl
  · exact dependencyStage input
  · exact routeStage input
  · exact transformStage input
  · exact apiStage input
  · exact componentStage input
  · exact guardStage input
  · exact deploymentStage input
  · exact finishStage input

end GoesByMade

/-- The record of a stage that failed. -/
def stageFailure (label message : String) : Diagnostic :=
  .warning "STAGE_FAILED" ("Error " ++ label ++ ": " ++ message)

/-- A stage that cannot do its work: it announces itself, fails, and leaves nothing but the record. -/
structure FailsWith (step : MigrationState → MigrationState) (failure : Diagnostic) : Prop where
  alike : ∀ state, MadeAlike state (step state)
  records : ∀ state, (step state).records = state.records ++ [failure]

/-- Two results differ in one warning, which the second one has in addition. -/
structure WarnsAlso (warning : String) (plain warned : MigrationResult) : Prop where
  rest : warned = { plain with warnings := warned.warnings }
  warnings : ∃ before after, plain.warnings = before ++ after ∧ warned.warnings = before ++ warning :: after

lemma WarnsAlso.of_absorb (result : MigrationResult) (label message : String)
    (before after : List Diagnostic) :
    WarnsAlso ("Error " ++ label ++ ": " ++ message) (result.absorb (before ++ after))
      (result.absorb (before ++ [stageFailure label message] ++ after)) := by
  have hwarning : Diagnostic.reports .warning [stageFailure label message] =
      ["Error " ++ label ++ ": " ++ message] := rfl
  have hcritical : Diagnostic.reports .critical [stageFailure label message] = [] := rfl
  have hinfo : Diagnostic.reports .info [stageFailure label message] = [] := rfl
  simp only [MigrationResult.absorb, Diagnostic.reports_append, hwarning, hcritical, hinfo, List.append_nil]
  refine ⟨rfl, result.warnings ++ Diagnostic.reports .warning before, Diagnostic.reports .warning after,
    ?_, ?_⟩
  · simp only [List.append_assoc]
  · simp only [List.append_assoc, List.singleton_append]

/-- A stage fails in one run and does nothing in another one, and the other stages are the same: then the
first run is the second one with the failure for a warning. -/
lemma warnsAlso_of_failsWith (input without : MigrationInput) {stage : Stage}
    (front back : List Stage) {label message : String} (hstages : stages = front ++ stage :: back)
    (hproject : without.project = input.project)
    (hfront : front.map (· without) = front.map (· input)) (hback : back.map (· without) = back.map (· input))
    (hfails : FailsWith (stage input) (stageFailure label message)) (hoff : stage without = id) :
    WarnsAlso ("Error " ++ label ++ ": " ++ message) (run without).1 (run input).1 := by
  have hfold : ∀ (part : List Stage), part.map (· without) = part.map (· input) → ∀ state,
      part.foldl (fun state stage => stage without state) state =
        part.foldl (fun state stage => stage input state) state := by
    intro part hpart state
    have hmap := congrArg (List.foldl (fun state step => step state) state) hpart
    simpa only [List.foldl_map] using hmap
  have hstart : initialState without = initialState input := by
    simp only [initialState, hproject]
  -- Up to the stage both runs are one; behind it they have made the same.
  set state := front.foldl (fun state stage => stage input state) (initialState input)
  have hinput : finalState input = back.foldl (fun state stage => stage input state) (stage input state) := by
    rw [finalState, hstages, List.foldl_append, List.foldl_cons]
  have hwithout : finalState without = back.foldl (fun state stage => stage input state) state := by
    rw [finalState, hstages, List.foldl_append, List.foldl_cons, hoff, hfold back hback, hstart,
      hfold front hfront]
    rfl
  have hbehind : ∀ later ∈ back, GoesByMade (later input) := fun later hlater =>
    GoesByMade.of_mem_stages input (by simp [hstages, hlater])
  obtain ⟨halike, added, hplain, hwarned⟩ := (GoesByMade.foldl hbehind).alike (hfails.alike state)
  rw [run_fst, run_fst, hinput, hwithout, halike.result, hplain, hwarned, hfails.records]
  exact .of_absorb _ _ _ _ _

end Migration

namespace MigrationInput

/-- The same run without a look at the packages. -/
def withoutDependencies (input : MigrationInput) : MigrationInput :=
  { input with options := { input.options with updateDependencies := false } }

/-- The same run without a look at middleware. -/
def withoutMiddleware (input : MigrationInput) : MigrationInput :=
  { input with options := { input.options with handleMiddleware := false } }

end MigrationInput

namespace Migration

lemma failsWith_dependencyStage {input : MigrationInput} {manifest : Json}
    (hon : input.options.updateDependencies = true) (hmanifest : input.manifest = some manifest)
    (hobject : manifest.fields? = none) :
    FailsWith (dependencyStage input)
      (stageFailure "analyzing dependencies" "package.json is not a JSON object") := by
  have herror : DependencySurvey.ofManifest input.manifest input.options.target = .error .notAnObject := by
    rw [hmanifest]
    cases manifest with
    | object fields => simp [Json.fields?] at hobject
    | _ => rfl
  constructor
  all_goals
    intro state
    simp only [dependencyStage, hon, if_true, herror]
  · exact ⟨rfl, rfl⟩
  · rfl

lemma failsWith_guardStage {input : MigrationInput} {file : ProjectFile} {e : ReadError}
    (hon : input.options.handleMiddleware = true)
    (hfile : RouteGuard.middleware? input.project = some file) (hread : file.read = .error e) :
    FailsWith (guardStage input) (stageFailure "handling middleware" e.message) := by
  have herror : RouteGuard.ofProject input.project input.options.targetSyntax = .error e := by
    simp only [RouteGuard.ofProject, hfile, hread]
    rfl
  constructor
  all_goals
    intro state
    simp only [guardStage, hon, if_true, herror]
  · exact ⟨rfl, rfl⟩
  · rfl

/-- A stage that fails is like one that is switched off, but for a warning. So it is with a manifest that is
not an object, and with middleware that cannot be read: everything else in the result is as in the run
without the stage. -/
theorem failed_stage_as_switched_off (input : MigrationInput) :
    (∀ manifest, input.options.updateDependencies = true → input.manifest = some manifest →
      manifest.fields? = none →
      WarnsAlso "Error analyzing dependencies: package.json is not a JSON object"
        (run input.withoutDependencies).1 (run input).1) ∧
    ∀ file e, input.options.handleMiddleware = true →
      RouteGuard.middleware? input.project = some file → file.read = .error e →
      WarnsAlso ("Error handling middleware: " ++ e.message)
        (run input.withoutMiddleware).1 (run input).1 := by
  constructor
  · intro manifest hon hmanifest hobject
    have hfails := failsWith_dependencyStage hon hmanifest hobject
    have hoff : dependencyStage input.withoutDependencies = id := rfl
    exact warnsAlso_of_failsWith input input.withoutDependencies [] stages.tail rfl rfl rfl rfl hfails hoff
  · intro file e hon hfile hread
    have hfails := failsWith_guardStage hon hfile hread
    have hoff : guardStage input.withoutMiddleware = id := rfl
    exact warnsAlso_of_failsWith input input.withoutMiddleware (stages.take 5) (stages.drop 6) rfl rfl rfl rfl
      hfails hoff

/-- A site whose manifest is a text and whose middleware is gone when it is read. -/
def brokenSite : MigrationInput where
  project := [⟨"pages/index.tsx", .inMemory "router.back();"⟩,
    ⟨"src/middleware.ts", .onDisk "disk/src/middleware.ts" none⟩]
  manifest := some (.string "site")

theorem failed_stage_as_switched_off_brokenSite :
    brokenSite.options.updateDependencies = true ∧ brokenSite.manifest = some (.string "site") ∧
    (Json.string "site").fields? = none ∧ brokenSite.options.handleMiddleware = true ∧
    (∃ file, RouteGuard.middleware? brokenSite.project = some file ∧
      file.read = .error (.notFound "disk/src/middleware.ts")) ∧
    WarnsAlso "Error analyzing dependencies: package.json is not a JSON object"
      (run brokenSite.withoutDependencies).1 (run brokenSite).1 ∧
    WarnsAlso ("Error handling middleware: " ++ (ReadError.notFound "disk/src/middleware.ts").message)
      (run brokenSite.withoutMiddleware).1 (run brokenSite).1 := by
  obtain ⟨hdependencies, hmiddleware⟩ := failed_stage_as_switched_off brokenSite
  have hfile : RouteGuard.middleware? brokenSite.project =
      some ⟨"src/middleware.ts", .onDisk "disk/src/middleware.ts" none⟩ := by
    simp [RouteGuard.middleware?, RouteGuard.middlewarePaths, Project.get?, brokenSite]
  exact ⟨rfl, rfl, rfl, rfl, ⟨_, hfile, rfl⟩, hdependencies _ rfl rfl rfl, hmiddleware _ _ rfl hfile rfl⟩

end Migration

end SpaMigration
