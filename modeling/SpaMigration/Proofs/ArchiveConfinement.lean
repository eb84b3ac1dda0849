import SpaMigration.Conversion
import SpaMigration.Proofs.OutputPlan

/-!
# Where the files of an archive are written

Entries of an archive keep the paths that their names spell behind the folder of the project, whatever these
are. The output stays below its directory exactly when all these paths do; then nothing outside is changed,
also when writing fails halfway.
-/
namespace SpaMigration

open DiskPath

namespace Project

lemma insertByPath_perm (file : ProjectFile) (project : Project) :
    (insertByPath file project).Perm (file :: project) := by
  induction project with
  | nil => exact .refl _
  | cons other rest ih =>
    simp only [insertByPath]
    split_ifs
    · exact .refl _
    · exact (ih.cons other).trans (.swap file other rest)

/-- Sorting by paths keeps the files. -/
theorem sortByPath_perm (project : Project) : (sortByPath project).Perm project := by
  induction project with
  | nil => exact .refl _
  | cons file rest ih => exact (insertByPath_perm file (sortByPath rest)).trans (ih.cons file)

end Project

namespace LoadedProject

/-- The name of an entry with slashes between its parts. -/
def slashed (name : String) : List Char := name.toList.map fun c => if c == '\\' then '/' else c

lemma slashed_eq_self {name : String} (h : '\\' ∉ name.toList) : slashed name = name.toList := by
  rw [slashed]
  conv_rhs => rw [← List.map_id name.toList]
  refine List.map_congr_left fun c hc => ?_
  have hne : c ≠ '\\' := fun heq => h (heq ▸ hc)
  simp [hne]

/-- The entry becomes a file of the project with the path: it is a text and no directory, its name is the
path behind the folder of the project, and the path is not ignored. -/
structure IsLoadedAs (entries : List ArchiveEntry) (entry : ArchiveEntry) (path : String) : Prop where
  isFile : isDirectoryName entry.name = false
  isText : (String.fromUTF8? entry.bytes).isSome
  name_eq : slashed entry.name = (rootOf (textEntries entries)).toList ++ path.toList
  isKept : ProjectPath.isIgnored path = false

lemma mem_textEntries_iff {entries : List ArchiveEntry} {name text : String} :
    (name, text) ∈ textEntries entries ↔ ∃ entry ∈ entries, isDirectoryName entry.name = false ∧
      String.fromUTF8? entry.bytes = some text ∧ name.toList = slashed entry.name := by
  simp only [textEntries, List.mem_filterMap]
  constructor
  · rintro ⟨entry, hentry, h⟩
    split_ifs at h with hdirectory
    obtain ⟨found, htext, hpair⟩ := Option.map_eq_some_iff.mp h
    cases hpair
    exact ⟨entry, hentry, by simpa using hdirectory, htext, String.toList_ofList⟩
  · rintro ⟨entry, hentry, hdirectory, htext, hname⟩
    refine ⟨entry, hentry, ?_⟩
    rw [if_neg (by simp [hdirectory]), htext, Option.map_some, ← slashed, ← hname, String.ofList_toList]

/-- The paths of the project are those that its entries are loaded as. -/
lemma exists_mem_projectEntries_iff {entries : List ArchiveEntry} {path : String} :
    (∃ text, (path, text) ∈ projectEntries (textEntries entries)) ↔
      ∃ entry ∈ entries, IsLoadedAs entries entry path := by
  simp only [projectEntries, List.mem_filterMap, Prod.exists, Option.bind_eq_some_iff,
    Text.dropPrefix?_eq_some_iff]
  constructor
  · rintro ⟨text, name, _, hmem, rest, hrest, hkept⟩
    obtain ⟨entry, hentry, hfile, htext, hname⟩ := mem_textEntries_iff.mp hmem
    split_ifs at hkept with hignored
    cases hkept
    refine ⟨entry, hentry, hfile, by simp [htext], ?_, by simpa using hignored⟩
    rw [← hname, hrest, String.toList_ofList]
  · rintro ⟨entry, hentry, h⟩
    obtain ⟨text, htext⟩ := Option.isSome_iff_exists.mp h.isText
    refine ⟨text, String.ofList (slashed entry.name), text, ?_, path.toList, ?_, ?_⟩
    · exact mem_textEntries_iff.mpr ⟨entry, hentry, h.isFile, htext, String.toList_ofList⟩
    · rw [String.toList_ofList, h.name_eq]
    · rw [String.ofList_toList, if_neg (by simp [h.isKept])]

/-- The files of a project from an archive: the entries that are loaded, each held in memory. -/
theorem mem_project_of_ofArchive {entries : List ArchiveEntry} {loaded : LoadedProject}
    (h : ofArchive entries = .ok loaded) {file : ProjectFile} :
    file ∈ loaded.project ↔
      ∃ text, (file.path, text) ∈ projectEntries (textEntries entries) ∧ file.content = .inMemory text := by
  have hproject : loaded.project = Project.sortByPath
      ((projectEntries (textEntries entries)).map fun found => ⟨found.1, .inMemory found.2⟩) := by
    simp only [ofArchive, bind, Except.bind, pure, Except.pure] at h
    split at h
    · simp at h
    · cases h
      rfl
  rw [hproject, (Project.sortByPath_perm _).mem_iff, List.mem_map]
  constructor
  · rintro ⟨found, hfound, rfl⟩
    exact ⟨found.2, hfound, rfl⟩
  · rintro ⟨text, hfound, hcontent⟩
    refine ⟨(file.path, text), hfound, ?_⟩
    cases file
    cases hcontent
    rfl

lemma exists_isLoadedAs_iff {entries : List ArchiveEntry} {loaded : LoadedProject}
    (h : ofArchive entries = .ok loaded) {path : String} :
    (∃ file ∈ loaded.project, file.path = path) ↔ ∃ entry ∈ entries, IsLoadedAs entries entry path := by
  rw [← exists_mem_projectEntries_iff]
  constructor
  · rintro ⟨file, hfile, rfl⟩
    obtain ⟨text, hfound, _⟩ := (mem_project_of_ofArchive h).mp hfile
    exact ⟨text, hfound⟩
  · rintro ⟨text, hfound⟩
    exact ⟨⟨path, .inMemory text⟩, (mem_project_of_ofArchive h).mpr ⟨text, hfound, rfl⟩, rfl⟩

end LoadedProject

namespace Output

open Disk PlannedWrite LoadedProject Migration

/-- A plan whose paths stay below changes nothing outside the directory, except that it makes the
directories on the way there. -/
theorem write_get?_outside {project : Project} {result : MigrationResult} (disk : Disk) (directory : String)
    (hinside : ∀ planned ∈ plan project result, IsConfined planned.path) {place : List String}
    (hplace : ¬ location directory <+: place) :
    (write disk project result directory).1.get? place = disk.get? place ∨
      IsPassed directory place ∧ disk.get? place = none ∧
        (write disk project result directory).1.get? place = some .directory := by
  have hchanged : Changed (fun place => IsPassed directory place ∨ location directory <+: place)
      (fun place => location directory <+: place) disk (write disk project result directory).1 := by
    unfold write
    split
    case _ disk₁ hmake =>
      refine ((createDirectory_changed hmake).mono (fun _ => .inl) fun _ => False.elim).trans
        ((writeAll_changed directory _ disk₁).mono ?_ ?_)
      · rintro other ⟨planned, hplanned, hpassed⟩
        exact hpassed.of_join (hinside planned hplanned)
      · rintro other ⟨planned, hplanned, rfl⟩
        rw [target, (hinside planned hplanned).location_join]
        exact List.prefix_append _ _
    case _ => exact .refl _ _ _
  rcases hchanged place with heq | ⟨hpassed | hbelow, hentries⟩ | hbelow
  · exact .inl heq
  · exact .inr ⟨hpassed, hentries⟩
  · exact absurd hbelow hplace
  · exact absurd hbelow hplace

lemma exists_text_of_planFile {result : MigrationResult} {file : ProjectFile} {text : String}
    (h : file.content = .inMemory text) : ∃ content, (planFile result file).source = .text content := by
  simp only [planFile, h]
  cases result.modifiedContent? file.path with
  | none => exact ⟨text, rfl⟩
  | some content => exact ⟨content, rfl⟩

/-- A plan of texts leaves a file wherever one of its paths leads. -/
lemma isFile_of_write {project : Project} {result : MigrationResult} {disk disk' : Disk}
    {directory : String} (htexts : ∀ planned ∈ plan project result, ∃ content, planned.source = .text content)
    (h : write disk project result directory = (disk', none)) {planned : PlannedWrite}
    (hplanned : planned ∈ plan project result) :
    disk'.isFile (location (join directory planned.path)) = true := by
  obtain ⟨disk₁, _, hall⟩ := write_eq_none h
  have hapart : SourcesApart directory (plan project result) := by
    intro other hother source hsource
    obtain ⟨content, htext⟩ := htexts other hother
    simp [htext] at hsource
  obtain ⟨last, hlast, _, hget, _⟩ := exists_last_of_writeAll hall hapart hplanned
  obtain ⟨content, htext⟩ := htexts last hlast
  rw [isFile_eq_true_iff, ← target, hget]
  simp [stored?, htext]

/-- For every archive that is loaded and every run on its project: what is written stays below the output
directory exactly when every entry is loaded with a path that stays below. In that case nothing outside the
directory is touched, apart from directories that are made on the way to it; and in every case a file
stands where the paths lead once writing has succeeded. -/
theorem archive_writes_confined_iff {entries : List ArchiveEntry} {loaded : LoadedProject}
    (h : ofArchive entries = .ok loaded) (input : MigrationInput) (hinput : input.project = loaded.project)
    (disk : Disk) (directory : String) :
    ((∀ planned ∈ plan input.project (run input).1, IsConfined planned.path) ↔
      ∀ entry ∈ entries, ∀ path, IsLoadedAs entries entry path → IsConfined path) ∧
    ((∀ entry ∈ entries, ∀ path, IsLoadedAs entries entry path → IsConfined path) →
      ∀ place, ¬ location directory <+: place →
        (write disk input.project (run input).1 directory).1.get? place = disk.get? place ∨
          IsPassed directory place ∧ disk.get? place = none ∧
            (write disk input.project (run input).1 directory).1.get? place = some .directory) ∧
    ∀ disk', write disk input.project (run input).1 directory = (disk', none) →
      ∀ entry ∈ entries, ∀ path, IsLoadedAs entries entry path →
        disk'.isFile (location (join directory path)) = true := by
  have hloaded : ∀ {path}, (∃ file ∈ input.project, file.path = path) ↔
      ∃ entry ∈ entries, IsLoadedAs entries entry path := hinput ▸ exists_isLoadedAs_iff h
  have hiff : (∀ planned ∈ plan input.project (run input).1, IsConfined planned.path) ↔
      ∀ entry ∈ entries, ∀ path, IsLoadedAs entries entry path → IsConfined path := by
    constructor
    · intro hplan entry hentry path hpath
      obtain ⟨file, hfile, rfl⟩ := hloaded.mpr ⟨entry, hentry, hpath⟩
      exact hplan (planFile (run input).1 file) (mem_plan_iff.mpr (.inl ⟨file, hfile, rfl⟩))
    · intro hentries planned hplanned
      rcases mem_plan_iff.mp hplanned with ⟨file, hfile, rfl⟩ | hadded
      · obtain ⟨entry, hentry, hpath⟩ := hloaded.mp ⟨file, hfile, rfl⟩
        exact hentries entry hentry file.path hpath
      · exact isConfined_of_mem_added hadded
  refine ⟨hiff, fun hentries place hplace => ?_, fun disk' hwrite entry hentry path hpath => ?_⟩
  · exact write_get?_outside disk directory (hiff.mpr hentries) hplace
  · obtain ⟨file, hfile, rfl⟩ := hloaded.mpr ⟨entry, hentry, hpath⟩
    have htexts : ∀ planned ∈ plan input.project (run input).1,
        ∃ content, planned.source = .text content := by
      intro planned hplanned
      rcases mem_plan_iff.mp hplanned with ⟨other, hother, rfl⟩ | hadded
      · obtain ⟨text, _, hcontent⟩ := (mem_project_of_ofArchive h).mp (hinput ▸ hother)
        exact exists_text_of_planFile hcontent
      · exact added_source hadded
    have hmem : planFile (run input).1 file ∈ plan input.project (run input).1 :=
      mem_plan_iff.mpr (.inl ⟨file, hfile, rfl⟩)
    simpa only [planFile] using isFile_of_write htexts hwrite hmem

/-- An archive with one name that starts at the root behind the folder of the project. -/
def slippingArchive : List ArchiveEntry :=
  [⟨"app/package.json", "\x7b\x7d".toUTF8⟩, ⟨"app//srv/notes.txt", "Notes".toUTF8⟩]

/-- The archive is loaded, and its project is not written below the output directory: the notes end up in
a directory at the root. -/
theorem archive_writes_confined_iff_slippingArchive : ∃ loaded,
    ofArchive slippingArchive = .ok loaded ∧
    (¬ ∀ planned ∈ plan loaded.project (run { project := loaded.project }).1, IsConfined planned.path) ∧
    ∀ disk', write [] loaded.project (run { project := loaded.project }).1 "out" = (disk', none) →
      disk'.isFile ["/", "srv", "notes.txt"] = true := by
  have hok : (ofArchive slippingArchive).isOk = true := by decide
  obtain ⟨loaded, hloaded⟩ : ∃ loaded, ofArchive slippingArchive = .ok loaded := by
    cases h : ofArchive slippingArchive with
    | error e => simp [h, Except.isOk, Except.toBool] at hok
    | ok loaded => exact ⟨loaded, rfl⟩
  obtain ⟨hiff, _, hfile⟩ :=
    archive_writes_confined_iff hloaded { project := loaded.project } rfl [] "out"
  have hmem : ⟨"app//srv/notes.txt", "Notes".toUTF8⟩ ∈ slippingArchive := by decide
  have hpath : IsLoadedAs slippingArchive ⟨"app//srv/notes.txt", "Notes".toUTF8⟩ "/srv/notes.txt" :=
    ⟨by decide, by decide, by decide, by decide⟩
  have hplace : location (join "out" "/srv/notes.txt") = ["/", "srv", "notes.txt"] := by decide
  refine ⟨loaded, hloaded, fun hplan => ?_, fun disk' hwrite => ?_⟩
  · have hconfined : IsConfined "/srv/notes.txt" := hiff.mp hplan _ hmem _ hpath
    exact absurd hconfined (by decide)
  · exact hplace ▸ hfile disk' hwrite _ hmem _ hpath

/-- Converting an archive with a name that leads up writes a file beside the output directory. -/
theorem entry_escapes_output :
    let archive : List ArchiveEntry := [⟨"../notes.txt", "Notes".toUTF8⟩]
    let converted := Conversion.run [(["app.zip"], .archive archive)] "app.zip" "out" {}
    converted.2.isOk = true ∧ ¬ location "out" <+: ["notes.txt"] ∧
      converted.1.get? ["notes.txt"] = some (.file "Notes".toUTF8) := by
  decide +kernel

end Output

end SpaMigration
