import SpaMigration.Proofs.BatchOrder
import SpaMigration.Proofs.StageFailures

/-!
# The progress of a run

Each stage announces percentages: the mark at which it starts and, where the rules are applied, one for every
batch of files. A stage that fails has announced only the first of them. Since the announced percentages
ascend from stage to stage, they are what a run reports, whichever stages fail.
-/
namespace SpaMigration

namespace MigrationState

/-- The reports after one more, which never goes back nor past one hundred. -/
def raise (progress : List (Nat × String)) (announced : Nat × String) : List (Nat × String) :=
  progress ++ [(max ((progress.getLast?.map (·.1)).getD 0) (min announced.1 100), announced.2)]

@[simp] lemma report_progress (state : MigrationState) (percent : Nat) (message : String) :
    (state.report percent message).progress = raise state.progress (percent, message) := rfl

lemma prefix_foldl_raise (progress announced : List (Nat × String)) :
    progress <+: announced.foldl raise progress := by
  induction announced generalizing progress with
  | nil => exact List.prefix_rfl
  | cons first rest ih => exact (List.prefix_append _ _).trans (ih (raise progress first))

/-- Reports that never go back nor past one hundred. -/
structure Ascends (progress : List (Nat × String)) : Prop where
  ascending : progress.Pairwise fun first second => first.1 ≤ second.1
  bounded : ∀ report ∈ progress, report.1 ≤ 100

lemma Ascends.sublist {part progress : List (Nat × String)} (h : Ascends progress)
    (hpart : part.Sublist progress) : Ascends part :=
  ⟨h.ascending.sublist hpart, fun report hreport => h.bounded report (hpart.subset hreport)⟩

/-- A percentage that does not go back is reported as it is announced. -/
lemma raise_eq {progress : List (Nat × String)} {announced : Nat × String}
    (h : Ascends (progress ++ [announced])) : raise progress announced = progress ++ [announced] := by
  have hbound : announced.1 ≤ 100 := h.bounded announced (by simp)
  have hlast : (progress.getLast?.map (·.1)).getD 0 ≤ announced.1 := by
    cases hlast : progress.getLast? with
    | none => exact Nat.zero_le _
    | some last =>
      exact (List.pairwise_append.mp h.ascending).2.2 last (List.mem_of_getLast? hlast) announced (by simp)
  rw [raise, Nat.min_eq_left hbound, Nat.max_eq_right hlast]

lemma foldl_raise {progress announced : List (Nat × String)} (h : Ascends (progress ++ announced)) :
    announced.foldl raise progress = progress ++ announced := by
  induction announced generalizing progress with
  | nil => exact (List.append_nil _).symm
  | cons first rest ih =>
    have hsplit : progress ++ first :: rest = progress ++ [first] ++ rest := by simp
    rw [hsplit] at h ⊢
    rw [List.foldl_cons, raise_eq (h.sublist (List.sublist_append_left _ _)), ih h]

end MigrationState

namespace Migration

open MigrationState

/-- What is announced after a batch: the share of its part of the progress, rounded down. -/
def batchReport (batch : Nat × Nat) : Nat × String :=
  (transformStart + (transformEnd - transformStart) * batch.1 / max batch.2 1,
    "Transformed " ++ toString batch.1 ++ "/" ++ toString batch.2 ++ " files")

/-- What is announced while the rules are applied. -/
def transformReports (input : MigrationInput) : List (Nat × String) :=
  (transformStart, "Transforming files...") ::
    ((transformerFor input.options).transform input.project).progress.map batchReport

/-- What a stage announces that is switched by an option. -/
def switchedReport (on : Bool) (percent : Nat) (message : String) : List (Nat × String) :=
  if on then [(percent, message)] else []

/-- What each of the stages announces. -/
def stageReports (input : MigrationInput) : List (List (Nat × String)) :=
  [switchedReport input.options.updateDependencies 10 "Analyzing dependencies...",
   switchedReport input.options.useRouter 20 "Analyzing routes...",
   transformReports input,
   switchedReport input.options.convertApiRoutes 75 "Converting API routes...",
   switchedReport input.options.replaceComponents 85 "Replacing Next.js components...",
   switchedReport input.options.handleMiddleware 90 "Converting middleware...",
   switchedReport input.options.generateDeployConfigs 95 "Generating CI/CD configurations...",
   []]

/-- A step announces percentages: it reports each of them, if need be raised to what was reported before. -/
def Announces (step : MigrationState → MigrationState) (announced : List (Nat × String)) : Prop :=
  ∀ state, (step state).progress = announced.foldl raise state.progress

namespace Announces

variable (input : MigrationInput)

lemma switched {on : Bool} {percent : Nat} {message : String} {step : MigrationState → MigrationState}
    (h : ∀ state, (step state).progress = (state.report percent message).progress) :
    Announces (fun state => if on then step state else state) (switchedReport on percent message) := by
  intro state
  cases on
  · rfl
  · exact h state

lemma dependencyStage : Announces (Migration.dependencyStage input)
    (switchedReport input.options.updateDependencies 10 "Analyzing dependencies...") := by
  refine switched fun state => ?_
  cases DependencySurvey.ofManifest input.manifest input.options.target with
  | ok survey =>
    simp only [applySurvey]
    split_ifs <;> rfl
  | error e => rfl

lemma routeStage : Announces (Migration.routeStage input)
    (switchedReport input.options.useRouter 20 "Analyzing routes...") :=
  switched fun _ => rfl

lemma foldl_reportBatch (batches : List (Nat × Nat)) (state : MigrationState) :
    (batches.foldl reportBatch state).progress = (batches.map batchReport).foldl raise state.progress := by
  induction batches generalizing state with
  | nil => rfl
  | cons batch rest ih => exact ih (reportBatch state batch)

lemma transformStage : Announces (Migration.transformStage input) (transformReports input) :=
  fun _ => foldl_reportBatch _ _

lemma apiStage : Announces (Migration.apiStage input)
    (switchedReport input.options.convertApiRoutes 75 "Converting API routes...") :=
  switched fun _ => rfl

lemma componentStage : Announces (Migration.componentStage input)
    (switchedReport input.options.replaceComponents 85 "Replacing Next.js components...") := by
  refine switched fun state => ?_
  simp only
  split_ifs <;> rfl

lemma guardStage : Announces (Migration.guardStage input)
    (switchedReport input.options.handleMiddleware 90 "Converting middleware...") := by
  refine switched fun state => ?_
  simp only
  split <;> rfl

lemma foldl_addDeployment (templates : List (Platform × GeneratedFile)) (state : MigrationState) :
    (templates.foldl addDeployment state).progress = state.progress := by
  induction templates generalizing state with
  | nil => rfl
  | cons template rest ih => exact ih (addDeployment state template)

lemma deploymentStage : Announces (Migration.deploymentStage input)
    (switchedReport input.options.generateDeployConfigs 95 "Generating CI/CD configurations...") :=
  switched fun _ => foldl_addDeployment _ _

lemma finishStage : Announces (Migration.finishStage input) [] := fun _ => rfl

/-- Every stage announces what stands for it in the list. -/
lemma stages : List.Forall₂ (fun stage announced => Announces (stage input) announced) Migration.stages
    (stageReports input) :=
  .cons (dependencyStage input) <| .cons (routeStage input) <| .cons (transformStage input) <|
    .cons (apiStage input) <| .cons (componentStage input) <| .cons (guardStage input) <|
    .cons (deploymentStage input) <| .cons (finishStage input) .nil

end Announces

/-- A step is made, or it fails somewhere on its way. It has then reported a part of what it reports, and it
may have left anything else behind. -/
structure MayFail (step : MigrationState → MigrationState) (before after : MigrationState) : Prop where
  goesOn : before.progress <+: after.progress
  partly : after.progress <+: (step before).progress

instance (step : MigrationState → MigrationState) (before after : MigrationState) :
    Decidable (MayFail step before after) :=
  decidable_of_iff (before.progress <+: after.progress ∧ after.progress <+: (step before).progress)
    ⟨fun h => ⟨h.1, h.2⟩, fun h => ⟨h.goesOn, h.partly⟩⟩

/-- Stages follow one another, and each of them may fail. -/
inductive Proceeds (input : MigrationInput) : List Stage → MigrationState → MigrationState → Prop
  | done (state : MigrationState) : Proceeds input [] state state
  | stage {stage : Stage} {rest : List Stage} {before middle after : MigrationState}
      (hstage : MayFail (stage input) before middle) (hrest : Proceeds input rest middle after) :
      Proceeds input (stage :: rest) before after

/-- Stages of which none fails follow one another. -/
lemma Proceeds.of_foldl {input : MigrationInput} {rest : List Stage}
    {announced : List (List (Nat × String))}
    (h : List.Forall₂ (fun stage announced => Announces (stage input) announced) rest announced)
    (state : MigrationState) :
    Proceeds input rest state (rest.foldl (fun state stage => stage input state) state) := by
  induction h generalizing state with
  | nil => exact .done state
  | @cons stage first rest others hfirst _ ih =>
    have hkept : state.progress <+: (stage input state).progress := by
      rw [hfirst]
      exact prefix_foldl_raise _ _
    exact .stage ⟨hkept, List.prefix_rfl⟩ (ih (stage input state))

lemma flatten_sublist_of_prefixes {pieces announced : List (List (Nat × String))}
    (h : List.Forall₂ (· <+: ·) pieces announced) : pieces.flatten.Sublist announced.flatten := by
  induction h with
  | nil => exact List.nil_sublist _
  | cons hfirst _ ih => exact hfirst.sublist.append ih

/-- Where the announced percentages ascend, each stage has reported the first ones that it announces, just
as they are announced. -/
lemma Proceeds.progress_eq {input : MigrationInput} {rest : List Stage} {before after : MigrationState}
    {announced : List (List (Nat × String))} (h : Proceeds input rest before after)
    (hannounces : List.Forall₂ (fun stage announced => Announces (stage input) announced) rest announced)
    (hascends : Ascends (before.progress ++ announced.flatten)) :
    ∃ pieces, List.Forall₂ (· <+: ·) pieces announced ∧ after.progress = before.progress ++ pieces.flatten := by
  induction h generalizing announced with
  | done state =>
    cases hannounces
    exact ⟨[], .nil, by simp⟩
  | @stage stage rest before middle after hstage hrest ih =>
    cases hannounces with
    | @cons _ first _ others hfirst hothers =>
      rw [List.flatten_cons, ← List.append_assoc] at hascends
      obtain ⟨piece, hpiece⟩ := hstage.goesOn
      have hpart := hstage.partly
      rw [hfirst, foldl_raise (hascends.sublist (List.sublist_append_left _ _)), ← hpiece,
        List.prefix_append_right_inj] at hpart
      have hmiddle : (before.progress ++ piece).Sublist (before.progress ++ first) :=
        hpart.sublist.append_left _
      obtain ⟨pieces, hpieces, hafter⟩ := ih hothers <| hascends.sublist <| by
        rw [← hpiece]
        exact hmiddle.append_right _
      refine ⟨piece :: pieces, .cons hpart hpieces, ?_⟩
      rw [hafter, ← hpiece, List.flatten_cons, List.append_assoc]

lemma batchReport_percent_le {done total : Nat} (h : done ≤ total) :
    transformStart ≤ (batchReport (done, total)).1 ∧ (batchReport (done, total)).1 ≤ transformEnd := by
  have hshare : 45 * done / max total 1 ≤ 45 := Nat.div_le_of_le_mul (by omega)
  exact ⟨Nat.le_add_right _ _, Nat.add_le_add_left hshare transformStart⟩

lemma mem_transformReports {input : MigrationInput} {report : Nat × String}
    (h : report ∈ transformReports input) : transformStart ≤ report.1 ∧ report.1 ≤ transformEnd := by
  obtain ⟨_, hbounds, _⟩ := (transformerFor input.options).progress_spec input.project
  rcases List.mem_cons.mp h with rfl | h
  · exact ⟨Nat.le_refl _, by decide⟩
  · obtain ⟨⟨done, total⟩, hbatch, rfl⟩ := List.mem_map.mp h
    obtain ⟨hdone, rfl⟩ := hbounds _ hbatch
    exact batchReport_percent_le hdone

lemma pairwise_transformReports (input : MigrationInput) :
    (transformReports input).Pairwise fun first second => first.1 ≤ second.1 := by
  obtain ⟨hincreasing, hbounds, _⟩ := (transformerFor input.options).progress_spec input.project
  refine List.pairwise_cons.mpr ⟨fun report hreport => ?_, List.pairwise_map.mpr ?_⟩
  · exact (mem_transformReports (List.mem_cons_of_mem _ hreport)).1
  · refine hincreasing.imp_of_mem fun {first second} hfirst hsecond hless => ?_
    have hshare : 45 * first.1 / max first.2 1 ≤ 45 * second.1 / max second.2 1 := by
      rw [(hbounds first hfirst).2, (hbounds second hsecond).2]
      exact Nat.div_le_div_right (Nat.mul_le_mul_left 45 (Nat.le_of_lt hless))
    simpa [batchReport, transformStart, transformEnd] using hshare

lemma switchedReport_sublist (on : Bool) (percent : Nat) (message : String) :
    (switchedReport on percent message).Sublist [(percent, message)] := by
  cases on
  · exact List.nil_sublist _
  · exact List.Sublist.refl _

/-- The marks up to the routes. -/
def earlyMarks : List (Nat × String) :=
  [(5, "Starting: analyzing project..."), (10, "Analyzing dependencies..."), (20, "Analyzing routes...")]

/-- The marks behind the rules. -/
def lateMarks : List (Nat × String) :=
  [(75, "Converting API routes..."), (85, "Replacing Next.js components..."),
   (90, "Converting middleware..."), (95, "Generating CI/CD configurations..."),
   (100, "Conversion completed!")]

lemma ascends_marks (input : MigrationInput) :
    Ascends (earlyMarks ++ (transformReports input ++ lateMarks)) := by
  have hearly : earlyMarks.Pairwise (fun first second => first.1 ≤ second.1) ∧
      ∀ report ∈ earlyMarks, report.1 ≤ transformStart := by decide
  have hlate : lateMarks.Pairwise (fun first second => first.1 ≤ second.1) ∧
      ∀ report ∈ lateMarks, transformEnd ≤ report.1 ∧ report.1 ≤ 100 := by decide
  have hwithin : transformStart ≤ transformEnd ∧ transformEnd ≤ 100 := by decide
  constructor
  · refine List.pairwise_append.mpr ⟨hearly.1, List.pairwise_append.mpr
      ⟨pairwise_transformReports input, hlate.1, ?_⟩, ?_⟩
    · intro first hfirst second hsecond
      exact Nat.le_trans (mem_transformReports hfirst).2 (hlate.2 second hsecond).1
    · intro first hfirst second hsecond
      refine Nat.le_trans (hearly.2 first hfirst) ?_
      rcases List.mem_append.mp hsecond with hsecond | hsecond
      · exact (mem_transformReports hsecond).1
      · exact Nat.le_trans hwithin.1 (hlate.2 second hsecond).1
  · intro report hreport
    simp only [List.mem_append] at hreport
    rcases hreport with hreport | hreport | hreport
    · exact Nat.le_trans (hearly.2 report hreport) (Nat.le_trans hwithin.1 hwithin.2)
    · exact Nat.le_trans (mem_transformReports hreport).2 hwithin.2
    · exact (hlate.2 report hreport).2

/-- The percentages ascend that are announced from the start to the end of a run. -/
lemma ascends_announced (input : MigrationInput) :
    Ascends ((5, "Starting: analyzing project...") :: (stageReports input).flatten ++
      [(100, "Conversion completed!")]) := by
  refine (ascends_marks input).sublist ?_
  simp only [stageReports, List.flatten_cons, List.flatten_nil, List.append_nil, List.append_assoc,
    List.cons_append]
  refine .cons_cons _ ?_
  refine (switchedReport_sublist _ _ _).append <| (switchedReport_sublist _ _ _).append <|
    (List.Sublist.refl _).append <| (switchedReport_sublist _ _ _).append <|
    (switchedReport_sublist _ _ _).append <| (switchedReport_sublist _ _ _).append <|
    (switchedReport_sublist _ _ _).append (List.Sublist.refl _)

/-- The progress of a run is complete, whichever stages fail and wherever they do. A run reports the start,
from each stage the first ones of the percentages that the stage announces, and the end, all of them as they
are announced. They never go back nor past one hundred, and the last one is one hundred. While the rules are
applied they stay within their part of the progress, so that a byte holds each of them. -/
theorem progress_complete (input : MigrationInput) :
    Proceeds input stages (initialState input) (finalState input) ∧
    (run input).2 = ((finalState input).report 100 "Conversion completed!").progress ∧
    (∀ report ∈ transformReports input,
      30 ≤ report.1 ∧ report.1 ≤ 75 ∧ (UInt8.ofNat report.1).toNat = report.1) ∧
    ∀ state, Proceeds input stages (initialState input) state →
      let progress := (state.report 100 "Conversion completed!").progress
      progress.Pairwise (fun first second => first.1 ≤ second.1) ∧
      (∀ report ∈ progress, report.1 ≤ 100) ∧
      progress.getLast? = some (100, "Conversion completed!") ∧
      ∃ pieces, List.Forall₂ (· <+: ·) pieces (stageReports input) ∧
        progress = (5, "Starting: analyzing project...") :: pieces.flatten ++
          [(100, "Conversion completed!")] := by
  refine ⟨.of_foldl (Announces.stages input) _, rfl, fun report hreport => ?_, fun state hproceeds => ?_⟩
  · obtain ⟨hstart, hend⟩ := mem_transformReports hreport
    simp only [transformStart, transformEnd] at hstart hend
    refine ⟨hstart, hend, ?_⟩
    rw [UInt8.toNat_ofNat']
    omega
  · have hascends := ascends_announced input
    obtain ⟨pieces, hpieces, hprogress⟩ := hproceeds.progress_eq (Announces.stages input)
      (hascends.sublist (List.sublist_append_left _ _))
    have hparts := flatten_sublist_of_prefixes hpieces
    have hreported : Ascends ((5, "Starting: analyzing project...") :: pieces.flatten ++
        [(100, "Conversion completed!")]) :=
      hascends.sublist ((hparts.cons_cons _).append_right _)
    have hend : (state.report 100 "Conversion completed!").progress =
        (5, "Starting: analyzing project...") :: pieces.flatten ++ [(100, "Conversion completed!")] := by
      rw [report_progress, hprogress]
      exact raise_eq hreported
    intro progress
    simp only [progress, hend]
    exact ⟨hreported.ascending, hreported.bounded, List.getLast?_concat, pieces, hpieces, rfl⟩

/-- Two style sheets, each of which is a batch. -/
def twoSheets : MigrationInput where
  project := [⟨"a.css", .inMemory ""⟩, ⟨"b.css", .inMemory ""⟩]
  options := { batchSize := 1 }

/-- A run on the style sheets in which the rules fail after the first of them and the middleware is not
looked at, after some of its reports. -/
def brokenOff (reports : Nat) : MigrationState where
  result := .start 2
  progress := [(5, "Starting: analyzing project..."), (10, "Analyzing dependencies..."),
    (20, "Analyzing routes..."), (30, "Transforming files..."), (52, "Transformed 1/2 files"),
    (75, "Converting API routes..."), (85, "Replacing Next.js components..."),
    (95, "Generating CI/CD configurations...")].take reports

lemma proceeds_brokenOff : Proceeds twoSheets stages (initialState twoSheets) (brokenOff 8) := by
  have hdependencies : MayFail (dependencyStage twoSheets) (initialState twoSheets) (brokenOff 2) := by
    decide +kernel
  have hroutes : MayFail (routeStage twoSheets) (brokenOff 2) (brokenOff 3) := by decide
  -- Here the rules fail: the report of the second batch is missing.
  have hrules : MayFail (transformStage twoSheets) (brokenOff 3) (brokenOff 5) := by decide
  have hhandlers : MayFail (apiStage twoSheets) (brokenOff 5) (brokenOff 6) := by decide
  have hcomponents : MayFail (componentStage twoSheets) (brokenOff 6) (brokenOff 7) := by decide
  have hguard : MayFail (guardStage twoSheets) (brokenOff 7) (brokenOff 7) := by decide
  have hdeployment : MayFail (deploymentStage twoSheets) (brokenOff 7) (brokenOff 8) := by decide
  have hend : MayFail (finishStage twoSheets) (brokenOff 8) (brokenOff 8) := by decide
  exact .stage hdependencies <| .stage hroutes <| .stage hrules <| .stage hhandlers <|
    .stage hcomponents <| .stage hguard <| .stage hdeployment <| .stage hend (.done _)

theorem progress_complete_brokenOff :
    Proceeds twoSheets stages (initialState twoSheets) (brokenOff 8) ∧
    (52, "Transformed 1/2 files") ∈ transformReports twoSheets ∧ (UInt8.ofNat 52).toNat = 52 ∧
    let progress := ((brokenOff 8).report 100 "Conversion completed!").progress
    progress.Pairwise (fun first second => first.1 ≤ second.1) ∧
    progress.getLast? = some (100, "Conversion completed!") := by
  obtain ⟨_, _, hreports, hcomplete⟩ := progress_complete twoSheets
  have hbatch : (52, "Transformed 1/2 files") ∈ transformReports twoSheets := by decide
  obtain ⟨hascending, _, hlast, _⟩ := hcomplete _ proceeds_brokenOff
  exact ⟨proceeds_brokenOff, hbatch, (hreports _ hbatch).2.2, hascending, hlast⟩

end Migration

end SpaMigration
