import SpaMigration.Proofs.OutputPlan

/-!
# What becomes of the files of a project

An output holds every file of the project, with its new text where the run changed it and with its own
bytes where it did not, unless something else is written to the same place afterwards. What may be written
there is known: the files that the run makes go to fixed paths, without regard to the paths of the project.
-/
namespace SpaMigration

open DiskPath

namespace Output

open Disk PlannedWrite Migration

/-- The bytes that a file of the project is to have in the output. -/
def promised? (result : MigrationResult) (file : ProjectFile) : Option ByteArray :=
  match result.modifiedContent? file.path with
  | some content => some content.toUTF8
  | none => file.bytes?

/-- The output holds the file as it is to be. -/
def Keeps (directory : String) (result : MigrationResult) (disk : Disk) (file : ProjectFile) : Prop :=
  disk.get? (location (join directory file.path)) = (promised? result file).map .file

instance (directory : String) (result : MigrationResult) (disk : Disk) (file : ProjectFile) :
    Decidable (Keeps directory result disk file) := inferInstanceAs (Decidable (_ = _))

/-- A file of the project that is not held in memory stands on the disk with its bytes. -/
def Stands (disk : Disk) (file : ProjectFile) : Prop :=
  ∀ place bytes, file.content = .onDisk place bytes →
    ∃ found, bytes = some found ∧ disk.get? (location place) = some (.file found)

section

variable {disk disk' : Disk} {directory : String} {result : MigrationResult} {file : ProjectFile}

lemma stored?_planFile (h : Stands disk file) :
    (planFile result file).stored? disk = (promised? result file).map .file := by
  simp only [stored?, planFile, promised?]
  cases result.modifiedContent? file.path with
  | some content => rfl
  | none =>
    cases hcontent : file.content with
    | inMemory text => simp [ProjectFile.bytes?, hcontent]
    | onDisk place bytes =>
      obtain ⟨found, rfl, hfound⟩ := h place bytes hcontent
      simp [ProjectFile.bytes?, hcontent, hfound]

lemma Stands.of_changed {made : List String → Prop} (h : Stands disk file)
    (hchanged : Changed made (fun _ => False) disk disk') : Stands disk' file := by
  intro place bytes hcontent
  obtain ⟨found, hbytes, hfound⟩ := h place bytes hcontent
  refine ⟨found, hbytes, ?_⟩
  rw [hchanged.get?_eq (by simp [hfound]) id, hfound]

lemma exists_source_of_planFile {source : String} (h : (planFile result file).source = .copyOf source) :
    ∃ bytes, file.content = .onDisk source bytes := by
  simp only [planFile] at h
  split at h
  · simp at h
  · simp at h
  case _ place bytes _ hcontent =>
    cases h
    exact ⟨bytes, hcontent⟩

end

/-- Files that stand outside the output are not written over while they are copied. -/
lemma sourcesApart_of_stands {project : Project} {result : MigrationResult} {disk : Disk}
    {directory : String} (hinside : ∀ planned ∈ plan project result, IsConfined planned.path)
    (hempty : ∀ place, location directory <+: place → disk.isFile place = false)
    (hstands : ∀ file ∈ project, Stands disk file) : SourcesApart directory (plan project result) := by
  intro planned hplanned source hsource other hother heq
  rcases mem_plan_iff.mp hplanned with ⟨file, hfile, rfl⟩ | hadded
  · obtain ⟨bytes, hcontent⟩ := exists_source_of_planFile hsource
    obtain ⟨found, _, hfound⟩ := hstands file hfile source bytes hcontent
    have hbelow : location directory <+: location source := by
      rw [heq, target, (hinside other hother).location_join]
      exact List.prefix_append _ _
    have hfile : disk.isFile (location source) = true := by simp [isFile_eq_true_iff, hfound]
    rw [hempty _ hbelow] at hfile
    exact Bool.false_ne_true hfile
  · obtain ⟨content, htext⟩ := added_source hadded
    simp [htext] at hsource

section

variable {input : MigrationInput} {disk disk' : Disk} {directory : String}
  (hinside : ∀ file ∈ input.project, IsConfined file.path)
  (hempty : ∀ place, location directory <+: place → disk.isFile place = false)
  (hstands : ∀ file ∈ input.project, Stands disk file)
  (hwrite : write disk input.project (run input).1 directory = (disk', none))

include hinside in
lemma isConfined_of_mem_plan {planned : PlannedWrite} (h : planned ∈ plan input.project (run input).1) :
    IsConfined planned.path := by
  rcases mem_plan_iff.mp h with ⟨file, hfile, rfl⟩ | hadded
  · exact hinside file hfile
  · exact isConfined_of_mem_added hadded

include hinside in
/-- Two writes go to one place exactly when their paths have the same names. -/
lemma target_eq_iff (directory : String) {a b : PlannedWrite} (ha : a ∈ plan input.project (run input).1)
    (hb : b ∈ plan input.project (run input).1) :
    a.target directory = b.target directory ↔ names a.path = names b.path := by
  rw [target, target, (isConfined_of_mem_plan hinside ha).location_join,
    (isConfined_of_mem_plan hinside hb).location_join, List.append_cancel_left_eq]

include hinside hempty hstands hwrite in
/-- The writes of the plan are made on a disk with the directory, where they store what they would have
stored before. -/
lemma exists_writeAll : ∃ disk₁,
    writeAll directory (plan input.project (run input).1) disk₁ = (disk', none) ∧
    SourcesApart directory (plan input.project (run input).1) ∧
    ∀ planned ∈ plan input.project (run input).1, planned.stored? disk₁ = planned.stored? disk := by
  obtain ⟨disk₁, hmake, hall⟩ := write_eq_none hwrite
  have hplan : ∀ planned ∈ plan input.project (run input).1, IsConfined planned.path :=
    fun planned hp => isConfined_of_mem_plan hinside hp
  refine ⟨disk₁, hall, sourcesApart_of_stands hplan hempty hstands, fun planned hplanned => ?_⟩
  rcases mem_plan_iff.mp hplanned with ⟨file, hfile, rfl⟩ | hadded
  · have hstands₁ := (hstands file hfile).of_changed (createDirectory_changed hmake)
    rw [stored?_planFile (hstands file hfile), stored?_planFile hstands₁]
  · obtain ⟨content, htext⟩ := added_source hadded
    simp [stored?, htext]

include hinside hempty hstands hwrite in
/-- What is written beside the files of the project stays as it is written. -/
lemma get?_target_of_mem_added {planned : PlannedWrite}
    (h : planned ∈ added input.project (run input).1) :
    disk'.get? (planned.target directory) = planned.stored? disk := by
  obtain ⟨disk₁, hall, hapart, hstored⟩ := exists_writeAll hinside hempty hstands hwrite
  obtain ⟨before, after, hadded⟩ := List.append_of_mem h
  have hplan : plan input.project (run input).1 =
      (input.project.map (planFile (run input).1) ++ before) ++ planned :: after := by
    rw [plan_eq, hadded, List.append_assoc]
  have hlater : ∀ later ∈ after, later.target directory ≠ planned.target directory := by
    intro later hl htarget
    have hnames := added_names_nodup input
    rw [hadded, List.map_append, List.map_cons, List.nodup_append, List.nodup_cons] at hnames
    have hmemLater : later ∈ plan input.project (run input).1 := by simp [hplan, hl]
    have hmem : planned ∈ plan input.project (run input).1 := by simp [hplan]
    rw [target_eq_iff hinside directory hmemLater hmem] at htarget
    exact hnames.2.1.1 (List.mem_map.mpr ⟨later, hl, htarget⟩)
  have hmem : planned ∈ plan input.project (run input).1 := mem_plan_iff.mpr (.inr h)
  rw [← hstored planned hmem]
  rw [hplan] at hall hapart
  exact (writeAll_get?_target hall hapart hlater).1

include hinside hempty hstands hwrite in
/-- What stands at the place of a file in the end was written there by a write of the plan. -/
lemma exists_writer {file : ProjectFile} (hfile : file ∈ input.project) :
    ∃ planned ∈ plan input.project (run input).1, names planned.path = names file.path ∧
      disk'.get? (location (join directory file.path)) = planned.stored? disk := by
  obtain ⟨disk₁, hall, hapart, hstored⟩ := exists_writeAll hinside hempty hstands hwrite
  have hmem : planFile (run input).1 file ∈ plan input.project (run input).1 :=
    mem_plan_iff.mpr (.inl ⟨file, hfile, rfl⟩)
  obtain ⟨last, hlast, htarget, hget, _⟩ := exists_last_of_writeAll hall hapart hmem
  exact ⟨last, hlast, (target_eq_iff hinside directory hlast hmem).mp htarget, hget.trans (hstored last hlast)⟩

end

/-- When an output is written into an empty directory, all files of the project are there as they are to be
exactly when every write to the place of a file stores just that. A file that shares its place with no other
file of the project is there exactly when the writes beside the project agree with it, and those go to
fixed paths. -/
theorem files_kept_iff (input : MigrationInput) (disk disk' : Disk) (directory : String)
    (hinside : ∀ file ∈ input.project, IsConfined file.path)
    (hempty : ∀ place, location directory <+: place → disk.isFile place = false)
    (hstands : ∀ file ∈ input.project, Stands disk file)
    (hwrite : write disk input.project (run input).1 directory = (disk', none)) :
    ((∀ file ∈ input.project, Keeps directory (run input).1 disk' file) ↔
      ∀ file ∈ input.project, ∀ planned ∈ plan input.project (run input).1,
        names planned.path = names file.path →
          planned.stored? disk = (promised? (run input).1 file).map .file) ∧
    (∀ file ∈ input.project,
      (∀ other ∈ input.project, names other.path = names file.path → other = file) →
      (Keeps directory (run input).1 disk' file ↔
        ∀ planned ∈ added input.project (run input).1, names planned.path = names file.path →
          planned.stored? disk = (promised? (run input).1 file).map .file)) ∧
    ((added input.project (run input).1).map (·.path)).Sublist
      (addedPaths input.options.targetSyntax) := by
  have hinPlan : ∀ file ∈ input.project,
      planFile (run input).1 file ∈ plan input.project (run input).1 :=
    fun file hfile => mem_plan_iff.mpr (.inl ⟨file, hfile, rfl⟩)
  -- A write beside the project that goes to the place of a kept file has stored what is there.
  have hagrees : ∀ file ∈ input.project, Keeps directory (run input).1 disk' file →
      ∀ planned ∈ added input.project (run input).1, names planned.path = names file.path →
        planned.stored? disk = (promised? (run input).1 file).map .file := by
    intro file hfile hkeeps planned hadded hnames
    have htarget := (target_eq_iff hinside directory (mem_plan_iff.mpr (.inr hadded))
      (hinPlan file hfile)).mpr hnames
    rw [← get?_target_of_mem_added hinside hempty hstands hwrite hadded, htarget]
    exact hkeeps
  refine ⟨⟨?_, ?_⟩, ?_, added_paths_sublist input⟩
  · intro hkeeps file hfile planned hplanned hnames
    rcases mem_plan_iff.mp hplanned with ⟨other, hother, rfl⟩ | hadded
    · have htarget := (target_eq_iff hinside directory hplanned (hinPlan file hfile)).mpr hnames
      rw [stored?_planFile (hstands other hother), ← hkeeps file hfile, ← hkeeps other hother]
      exact congrArg disk'.get? htarget
    · exact hagrees file hfile (hkeeps file hfile) planned hadded hnames
  · intro hall file hfile
    obtain ⟨planned, hplanned, hnames, hget⟩ := exists_writer hinside hempty hstands hwrite hfile
    exact hget.trans (hall file hfile planned hplanned hnames)
  · intro file hfile hunique
    refine ⟨hagrees file hfile, fun hall => ?_⟩
    obtain ⟨planned, hplanned, hnames, hget⟩ := exists_writer hinside hempty hstands hwrite hfile
    rw [Keeps, hget]
    rcases mem_plan_iff.mp hplanned with ⟨other, hother, rfl⟩ | hadded
    · obtain rfl := hunique other hother hnames
      exact stored?_planFile (hstands other hother)
    · exact hall planned hadded hnames

/-- A project with a configuration of its own for one of the platforms. -/
def ownConfiguration : MigrationInput where
  project := [⟨"README.md", .onDisk "app/README.md" (some "Notes".toUTF8)⟩,
    ⟨"vercel.json", .inMemory "\x7b\x7d"⟩]

/-- The disk that the other file of that project stands on. -/
def notesDisk : Disk := [(["app"], .directory), (["app", "README.md"], .file "Notes".toUTF8)]

/-- The disk and the failure after the project is written below `out`. -/
def ownConfigurationOutput : Disk × Option WriteError :=
  write notesDisk ownConfiguration.project (run ownConfiguration).1 "out"

/-- The notes are kept and the configuration is not, by the paths alone. -/
theorem files_kept_iff_ownConfiguration :
    (∀ file ∈ ownConfiguration.project, IsConfined file.path ∧ Stands notesDisk file) ∧
    ownConfigurationOutput.2 = none ∧
    ∀ file ∈ ownConfiguration.project,
      Keeps "out" (run ownConfiguration).1 ownConfigurationOutput.1 file ↔ file.path = "README.md" := by
  have hinside : ∀ file ∈ ownConfiguration.project, IsConfined file.path := by decide +kernel
  have hempty : ∀ place, location "out" <+: place → notesDisk.isFile place = false :=
    isFile_eq_false_of_forall (by decide +kernel)
  have hstands : ∀ file ∈ ownConfiguration.project, Stands notesDisk file := by
    intro file hfile place bytes hcontent
    simp only [ownConfiguration, List.mem_cons, List.not_mem_nil, or_false] at hfile
    rcases hfile with rfl | rfl
    · cases hcontent
      exact ⟨_, rfl, by decide +kernel⟩
    · simp at hcontent
  have hnone : ownConfigurationOutput.2 = none := by decide +kernel
  have hwrite : ownConfigurationOutput = (ownConfigurationOutput.1, none) := by rw [← hnone]
  have hkept := (files_kept_iff ownConfiguration notesDisk ownConfigurationOutput.1 "out" hinside hempty
    hstands hwrite).2.1
  have hnames : (ownConfiguration.project.map fun file => names file.path).Nodup := by decide +kernel
  have hagrees : ∀ file ∈ ownConfiguration.project,
      (∀ planned ∈ added ownConfiguration.project (run ownConfiguration).1,
        names planned.path = names file.path →
          planned.stored? notesDisk = (promised? (run ownConfiguration).1 file).map .file) ↔
        file.path = "README.md" := by decide +kernel
  refine ⟨fun file hfile => ⟨hinside file hfile, hstands file hfile⟩, hnone, fun file hfile => ?_⟩
  have hunique : ∀ other ∈ ownConfiguration.project, names other.path = names file.path → other = file :=
    fun other hother hsame => List.inj_on_of_nodup_map hnames hother hfile hsame
  exact (hkept file hfile hunique).trans (hagrees file hfile)

/-- Writing the project succeeds and puts another text in the place of its configuration. -/
theorem configuration_overwritten :
    (ownConfiguration.project.map fun file => names file.path).Nodup ∧
    (∀ file ∈ ownConfiguration.project, IsConfined file.path) ∧
    (∀ entry ∈ notesDisk, ¬ location "out" <+: entry.1) ∧
    ownConfigurationOutput.2 = none ∧
    ∃ file ∈ ownConfiguration.project,
      ¬ Keeps "out" (run ownConfiguration).1 ownConfigurationOutput.1 file := by
  have hmem : ⟨"vercel.json", .inMemory "\x7b\x7d"⟩ ∈ ownConfiguration.project := by
    simp [ownConfiguration]
  refine ⟨by decide +kernel, by decide +kernel, by decide +kernel, by decide +kernel, _, hmem, ?_⟩
  decide +kernel

end Output

end SpaMigration
