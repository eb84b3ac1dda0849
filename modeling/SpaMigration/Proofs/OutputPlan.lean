import Mathlib.Data.List.Nodup
import SpaMigration.Proofs.DiskWrites
import SpaMigration.Proofs.RunFiles

/-!
# What is written for a run

The plan of an output: one write for each file of the project, and then the writes for files that the
project does not have. The latter go to fixed paths, each to one of its own.
-/
namespace SpaMigration

open DiskPath

namespace Migration

/-- The paths outside a project that a run may write to. -/
def addedPaths (targetSyntax : TargetSyntax) : List String := "package.json" :: generatedPaths targetSyntax

lemma nodup_names_addedPaths (targetSyntax : TargetSyntax) :
    ((addedPaths targetSyntax).map names).Nodup := by
  cases targetSyntax <;> decide

lemma isConfined_of_mem_addedPaths {targetSyntax : TargetSyntax} {path : String}
    (h : path ∈ addedPaths targetSyntax) : IsConfined path := by
  have hall : ∀ path ∈ addedPaths targetSyntax, IsConfined path := by
    cases targetSyntax <;> decide
  exact hall path h

end Migration

namespace Output

open Migration

/-- The writes for files that the project does not have. -/
def added (project : Project) (result : MigrationResult) : List PlannedWrite :=
  ((result.modifiedFiles.filter fun file => (project.get? file.path).isNone).map fun file =>
      ⟨file.path, .text file.content⟩)
    ++ result.newFiles.map fun file => ⟨file.path, .text file.content⟩

lemma plan_eq (project : Project) (result : MigrationResult) :
    plan project result = project.map (planFile result) ++ added project result := by
  rw [plan, added, List.append_assoc]

lemma mem_plan_iff {project : Project} {result : MigrationResult} {planned : PlannedWrite} :
    planned ∈ plan project result ↔
      (∃ file ∈ project, planFile result file = planned) ∨ planned ∈ added project result := by
  rw [plan_eq, List.mem_append, List.mem_map]

/-- Beside the files of the project a run writes to some of the fixed paths, in order and at most once. -/
theorem added_paths_sublist (input : MigrationInput) :
    ((added input.project (run input).1).map (·.path)).Sublist (addedPaths input.options.targetSyntax) := by
  obtain ⟨hnew, hmodified⟩ := run_files input
  rw [added, List.map_append, List.map_map, List.map_map]
  exact hmodified.append hnew

lemma isConfined_of_mem_added {input : MigrationInput} {planned : PlannedWrite}
    (h : planned ∈ added input.project (run input).1) : IsConfined planned.path :=
  isConfined_of_mem_addedPaths ((added_paths_sublist input).subset (List.mem_map_of_mem h))

/-- The writes beside the files of the project go to different places. -/
lemma added_names_nodup (input : MigrationInput) :
    ((added input.project (run input).1).map fun planned => names planned.path).Nodup := by
  have hsub := (added_paths_sublist input).map names
  rw [List.map_map] at hsub
  exact (nodup_names_addedPaths _).sublist hsub

lemma added_source {project : Project} {result : MigrationResult} {planned : PlannedWrite}
    (h : planned ∈ added project result) : ∃ content, planned.source = .text content := by
  rcases List.mem_append.mp h with h | h
  all_goals
    obtain ⟨file, _, rfl⟩ := List.mem_map.mp h
    exact ⟨file.content, rfl⟩

/-- An output that is written has made the directory and then all the writes of the plan. -/
lemma write_eq_none {disk disk' : Disk} {project : Project} {result : MigrationResult} {directory : String}
    (h : write disk project result directory = (disk', none)) :
    ∃ disk₁, disk.createDirectory directory = .ok disk₁ ∧
      writeAll directory (plan project result) disk₁ = (disk', none) := by
  unfold write at h
  split at h
  case _ disk₁ hmake => exact ⟨disk₁, hmake, h⟩
  case _ => simp at h

end Output

end SpaMigration
