import SpaMigration.Proofs.ArchivedDirectories

/-!
# Archives with a folder around the project

An archive with its manifest at the top is loaded in the same way when a folder is put around all of it, as the
shallowest manifest then is the one in that folder. Entries beside the folder make no difference unless they are
manifests. Only an entry without a name gets lost, since in a folder it has the name of the folder itself, and that is
a directory.
-/
namespace SpaMigration

namespace ArchiveEntry

/-- The entry with a folder in front of its name. -/
def inFolder (folder : String) (entry : ArchiveEntry) : ArchiveEntry := ⟨folder ++ entry.name, entry.bytes⟩

end ArchiveEntry

namespace LoadedProject

/-- What can be put in front of names as a folder: it ends with a slash and has no backslashes. -/
structure IsFolder (folder : String) : Prop where
  endsWithSlash : folder.toList.getLast? = some '/'
  noBackslash : '\\' ∉ folder.toList

instance (folder : String) : Decidable (IsFolder folder) :=
  decidable_of_iff (folder.toList.getLast? = some '/' ∧ '\\' ∉ folder.toList)
    ⟨fun ⟨hslash, hnone⟩ => ⟨hslash, hnone⟩, fun ⟨hslash, hnone⟩ => ⟨hslash, hnone⟩⟩

/-- An entry beside a folder: its name does not start with the folder, and it is no manifest. -/
structure IsBeside (folder : String) (entry : ArchiveEntry) : Prop where
  outside : ¬ folder.toList <+: slashed entry.name
  notManifest : slashed entry.name ≠ manifestName.toList
  notManifestBelow : ¬ '/' :: manifestName.toList <:+ slashed entry.name

instance (folder : String) (entry : ArchiveEntry) : Decidable (IsBeside folder entry) :=
  decidable_of_iff (¬ folder.toList <+: slashed entry.name ∧ slashed entry.name ≠ manifestName.toList ∧
      ¬ '/' :: manifestName.toList <:+ slashed entry.name)
    ⟨fun ⟨houtside, hmanifest, hbelow⟩ => ⟨houtside, hmanifest, hbelow⟩,
      fun ⟨houtside, hmanifest, hbelow⟩ => ⟨houtside, hmanifest, hbelow⟩⟩

/-- The name and the text of an entry, unless it is a directory or no text. -/
def entryText? (entry : ArchiveEntry) : Option (String × String) :=
  if isDirectoryName entry.name then none
  else (String.fromUTF8? entry.bytes).map (String.ofList (slashed entry.name), ·)

lemma textEntries_eq (entries : List ArchiveEntry) : textEntries entries = entries.filterMap entryText? := rfl

/-! ## Names in a folder -/

variable {folder name wrapper text : String} {entries archive : List ArchiveEntry} {texts : List (String × String)}

/-- What stands in front of a manifest is nothing or ends with a slash. -/
lemma wrapper?_eq_some_iff : wrapper? name = some wrapper ↔
    name.toList = wrapper.toList ++ manifestName.toList ∧
      (wrapper = "" ∨ wrapper.toList.getLast? = some '/') := by
  rw [wrapper?]
  split_ifs with hname
  · obtain rfl : name = manifestName := by simpa using hname
    constructor
    · rintro h
      cases h
      exact ⟨rfl, .inl rfl⟩
    · rintro ⟨happend, -⟩
      have hempty : wrapper.toList = "".toList := List.self_eq_append_left.mp happend
      rw [String.toList_inj.mp hempty]
  · simp only [Option.map_eq_some_iff, Text.dropSuffix?_eq_some_iff]
    constructor
    · rintro ⟨front, hfront, rfl⟩
      refine ⟨?_, .inr ?_⟩
      · rw [hfront, String.toList_ofList, List.append_assoc, List.singleton_append]
      · rw [String.toList_ofList, List.getLast?_append, List.getLast?_singleton, Option.some_or]
    · rintro ⟨happend, rfl | hslash⟩
      · exact absurd (beq_iff_eq.mpr (String.toList_inj.mp happend)) hname
      · obtain ⟨front, hfront⟩ := List.getLast?_eq_some_iff.mp hslash
        refine ⟨front, ?_, ?_⟩
        · rw [happend, hfront, List.append_assoc, List.singleton_append]
        · rw [← hfront, String.ofList_toList]

/-- In a folder a manifest has the folder in front of what it had in front before. -/
lemma IsFolder.wrapper?_append (h : IsFolder folder) (name : String) :
    wrapper? (folder ++ name) = (wrapper? name).map (folder ++ ·) := by
  ext wrapper
  simp only [Option.map_eq_some_iff, wrapper?_eq_some_iff, String.toList_append]
  constructor
  · rintro ⟨happend, hwrapper⟩
    rcases List.append_eq_append_iff.mp happend with ⟨front, hfront, hname⟩ | ⟨middle, hmiddle, hmanifest⟩
    · refine ⟨String.ofList front, ⟨by rw [hname, String.toList_ofList], ?_⟩, ?_⟩
      · by_cases hnil : front = []
        · exact .inl (by rw [hnil, String.ofList_nil])
        · obtain rfl | hslash := hwrapper
          · exact absurd (List.append_eq_nil_iff.mp hfront.symm).2 hnil
          · rw [hfront, List.getLast?_append_of_ne_nil _ hnil] at hslash
            exact .inr (by rw [String.toList_ofList, hslash])
      · rw [← String.toList_inj, String.toList_append, String.toList_ofList, hfront]
    · -- The folder's last slash cannot be in the manifest's own name.
      have hnil : middle = [] := by
        by_contra hne
        have hslash := h.endsWithSlash
        rw [hmiddle, List.getLast?_append_of_ne_nil _ hne] at hslash
        have hmem : '/' ∈ manifestName.toList :=
          hmanifest ▸ List.mem_append_left _ (List.mem_of_getLast? hslash)
        exact absurd hmem (by decide)
      subst hnil
      refine ⟨"", ⟨hmanifest.symm, .inl rfl⟩, ?_⟩
      rw [← String.toList_inj, String.toList_append, hmiddle, List.append_nil]
      exact List.append_nil _
  · rintro ⟨front, ⟨hname, hfront⟩, rfl⟩
    refine ⟨by rw [hname, String.toList_append, List.append_assoc], .inr ?_⟩
    rw [String.toList_append, List.getLast?_append]
    rcases hfront with rfl | hfront
    · exact h.endsWithSlash
    · rw [hfront, Option.some_or]

lemma shortest_map_append (folder : String) (texts : List String) :
    shortest (texts.map (folder ++ ·)) = (shortest texts).map (folder ++ ·) := by
  induction texts with
  | nil => rfl
  | cons s rest ih =>
    rw [List.map_cons, shortest, shortest, ih]
    cases shortest rest with
    | none => rfl
    | some other =>
      simp only [Option.map_some, String.utf8ByteSize_append, Nat.add_le_add_iff_left]
      split_ifs <;> rfl

/-! ## Archives in a folder -/

/-- The project starts at the folder when that holds the manifest. -/
lemma IsFolder.rootOf_eq (h : IsFolder folder) (hmanifest : (manifestName, text) ∈ texts) :
    rootOf (texts.map fun entry => (folder ++ entry.1, entry.2)) = folder := by
  have hempty : "" ∈ texts.filterMap fun entry => wrapper? entry.1 :=
    List.mem_filterMap.mpr ⟨_, hmanifest, by simp [wrapper?]⟩
  have hwrappers : (texts.map fun entry => (folder ++ entry.1, entry.2)).filterMap (fun entry => wrapper? entry.1) =
      (texts.filterMap fun entry => wrapper? entry.1).map (folder ++ ·) := by
    rw [List.filterMap_map, List.map_filterMap]
    exact List.filterMap_congr fun entry _ => h.wrapper?_append entry.1
  rw [rootOf, hwrappers, shortest_map_append, shortest_eq_empty hempty]
  exact String.append_empty

/-- The project in the folder has the entries that the project had without. -/
lemma IsFolder.projectEntries_eq (h : IsFolder folder) (hmanifest : (manifestName, text) ∈ texts) :
    projectEntries (texts.map fun entry => (folder ++ entry.1, entry.2)) = projectEntries texts := by
  rw [projectEntries, projectEntries, h.rootOf_eq hmanifest, LoadedProject.rootOf_eq hmanifest, List.filterMap_map]
  refine List.filterMap_congr fun entry _ => ?_
  have hfolder : Text.dropPrefix? folder.toList (folder ++ entry.1).toList = some entry.1.toList :=
    Text.dropPrefix?_eq_some_iff.mpr (String.toList_append ..)
  have htop : Text.dropPrefix? "".toList entry.1.toList = some entry.1.toList := rfl
  simp only [Function.comp_apply, hfolder, htop]

lemma IsFolder.slashed_append (h : IsFolder folder) (name : String) :
    slashed (folder ++ name) = folder.toList ++ slashed name := by
  rw [← slashed_eq_self h.noBackslash, slashed, slashed, slashed, String.toList_append, List.map_append]

/-- In a folder a name is that of a directory if it is one without the folder, or empty. -/
lemma IsFolder.isDirectoryName_append (h : IsFolder folder) (name : String) :
    isDirectoryName (folder ++ name) = !(name != "" && !isDirectoryName name) := by
  rw [isDirectoryName, isDirectoryName, String.toList_append, List.getLast?_append, h.endsWithSlash]
  by_cases hname : name = ""
  · subst hname
    rfl
  · have hne : name.toList ≠ [] := fun hnil => hname (String.toList_eq_nil_iff.mp hnil)
    rw [List.getLast?_eq_some_getLast hne, Option.some_or, Option.any_some, bne_iff_ne.mpr hname]
    simp

/-- The entries in a folder, but for those without a name of their own, have the texts that they have without it. -/
lemma IsFolder.textEntries_eq (h : IsFolder folder) (entries : List ArchiveEntry) :
    textEntries (entries.map (·.inFolder folder)) =
      (textEntries (entries.filter (·.name != ""))).map fun entry => (folder ++ entry.1, entry.2) := by
  rw [LoadedProject.textEntries_eq, LoadedProject.textEntries_eq, List.filterMap_map, List.filterMap_filter,
    List.map_filterMap]
  refine List.filterMap_congr fun entry _ => ?_
  rw [Function.comp_apply, entryText?, entryText?, ArchiveEntry.inFolder, h.isDirectoryName_append, h.slashed_append]
  cases hnamed : entry.name != "" <;> cases hdirectory : isDirectoryName entry.name
  case true.false =>
    have hname : String.ofList (folder.toList ++ slashed entry.name) =
        folder ++ String.ofList (slashed entry.name) := by
      rw [String.ofList_append, String.ofList_toList]
    simp [hname, Function.comp_def]
  all_goals rfl

lemma ofArchive_congr (h : projectEntries (textEntries entries) = projectEntries (textEntries archive)) :
    ofArchive entries = ofArchive archive := by
  simp only [ofArchive, h]

/-! ## Entries beside a folder -/

/-- What is beside a folder tells nothing of where the project starts, and is no part of the folder. -/
lemma IsBeside.of_entryText? {entry : ArchiveEntry} (h : IsBeside folder entry)
    (htext : entryText? entry = some (name, text)) :
    wrapper? name = none ∧ Text.dropPrefix? folder.toList name.toList = none := by
  have hname : name.toList = slashed entry.name := by
    rw [entryText?] at htext
    split_ifs at htext
    obtain ⟨found, -, hpair⟩ := Option.map_eq_some_iff.mp htext
    cases hpair
    exact String.toList_ofList
  refine ⟨Option.eq_none_iff_forall_not_mem.mpr fun wrapper hwrapper => ?_,
    Option.eq_none_iff_forall_not_mem.mpr fun rest hrest => ?_⟩
  · obtain ⟨happend, rfl | hslash⟩ := wrapper?_eq_some_iff.mp hwrapper
    · exact h.notManifest (hname ▸ happend)
    · obtain ⟨front, hfront⟩ := List.getLast?_eq_some_iff.mp hslash
      refine h.notManifestBelow ⟨front, ?_⟩
      rw [← hname, happend, hfront, List.append_assoc, List.singleton_append]
  · exact h.outside ⟨rest, by rw [← hname, Text.dropPrefix?_eq_some_iff.mp hrest]⟩

/-- The texts of entries that are not beside the folder tell the same as all texts, if those beside it tell nothing. -/
lemma filterMap_textEntries_filter {α : Type} {f : String × String → Option α}
    (h : ∀ entry, IsBeside folder entry → ∀ found, entryText? entry = some found → f found = none)
    (archive : List ArchiveEntry) :
    (textEntries (archive.filter fun entry => ¬ IsBeside folder entry)).filterMap f =
      (textEntries archive).filterMap f := by
  rw [textEntries_eq, textEntries_eq, List.filterMap_filterMap, List.filterMap_filterMap, List.filterMap_filter]
  refine List.filterMap_congr fun entry _ => ?_
  by_cases hbeside : IsBeside folder entry
  · cases htext : entryText? entry with
    | none => simp
    | some found => simp [hbeside, h entry hbeside found htext]
  · simp [hbeside]

/-- Entries beside the folder of the project can be left out. -/
lemma projectEntries_filter
    (hroot : rootOf (textEntries (archive.filter fun entry => ¬ IsBeside folder entry)) = folder) :
    projectEntries (textEntries archive) =
      projectEntries (textEntries (archive.filter fun entry => ¬ IsBeside folder entry)) := by
  have hwrappers : (textEntries (archive.filter fun entry => ¬ IsBeside folder entry)).filterMap
      (fun entry => wrapper? entry.1) = (textEntries archive).filterMap fun entry => wrapper? entry.1 :=
    filterMap_textEntries_filter (fun entry hbeside found htext => (hbeside.of_entryText? htext).1) archive
  have hall : rootOf (textEntries archive) = folder := by rw [rootOf, ← hwrappers, ← rootOf, hroot]
  rw [projectEntries, projectEntries, hroot, hall]
  refine (filterMap_textEntries_filter (fun entry hbeside found htext => ?_) archive).symm
  simp only [(hbeside.of_entryText? htext).2, Option.bind_none]

/-! ## Loading -/

/-- For every archive with a text for a manifest at the top, and every folder: with the folder around all entries the
archive is loaded in the same way, or fails in the same way, as without the entries that have no name; and entries
beside the folder, put in anywhere, change nothing. -/
theorem wrapped_archive_loaded_alike (hfolder : IsFolder folder) {manifest : ArchiveEntry} (hmem : manifest ∈ entries)
    (hname : manifest.name = manifestName) (htext : (String.fromUTF8? manifest.bytes).isSome) :
    ofArchive (entries.map (·.inFolder folder)) = ofArchive (entries.filter (·.name != "")) ∧
    ∀ archive : List ArchiveEntry,
      (archive.filter fun entry => ¬ IsBeside folder entry) = entries.map (·.inFolder folder) →
      ofArchive archive = ofArchive (entries.map (·.inFolder folder)) := by
  obtain ⟨text, htext⟩ := Option.isSome_iff_exists.mp htext
  have hmanifest : (manifestName, text) ∈ textEntries (entries.filter (·.name != "")) := by
    refine mem_textEntries_iff.mpr ⟨manifest, List.mem_filter.mpr ⟨hmem, ?_⟩, ?_, htext, ?_⟩
    · rw [hname]
      decide
    · rw [hname]
      decide
    · rw [hname, slashed_eq_self (by decide)]
  refine ⟨ofArchive_congr ?_, fun archive harchive => ofArchive_congr ?_⟩
  · rw [hfolder.textEntries_eq, hfolder.projectEntries_eq hmanifest]
  · rw [← harchive]
    refine projectEntries_filter ?_
    rw [harchive, hfolder.textEntries_eq, hfolder.rootOf_eq hmanifest]

/-- A project with its own manifest twice, a manifest further below, a picture, an ignored directory, and a name written
with a backslash. -/
def layeredEntries : List ArchiveEntry :=
  [⟨"packages/site/package.json", "Notes".toUTF8⟩, ⟨"package.json", "\x7b\x7d".toUTF8⟩, ⟨"logo.png", ⟨#[0xff]⟩⟩,
   ⟨"dist/package.json", "\x7b\x7d".toUTF8⟩, ⟨"lib\\a.ts", "1".toUTF8⟩, ⟨"lib/", "".toUTF8⟩,
   ⟨"package.json", "\x7b\x7d".toUTF8⟩]

/-- The project in a directory that would be ignored inside of it, with files in front, in the middle and behind. -/
def layeredArchive : List ArchiveEntry :=
  ⟨"README.md", "Notes".toUTF8⟩ :: (layeredEntries.map (·.inFolder "out/dist/")).take 2 ++
    ⟨"out\\a.ts", "2".toUTF8⟩ :: (layeredEntries.map (·.inFolder "out/dist/")).drop 2 ++
    [⟨"out/dist", "3".toUTF8⟩]

theorem wrapped_archive_loaded_alike_layeredArchive :
    IsFolder "out/dist/" ∧ ⟨"package.json", "\x7b\x7d".toUTF8⟩ ∈ layeredEntries ∧
    (layeredArchive.filter fun entry => ¬ IsBeside "out/dist/" entry) =
      layeredEntries.map (·.inFolder "out/dist/") ∧
    (ofArchive layeredEntries).toOption.map (·.project.paths) =
      some ["lib/a.ts", "package.json", "package.json", "packages/site/package.json"] ∧
    ofArchive (layeredEntries.map (·.inFolder "out/dist/")) = ofArchive layeredEntries ∧
    ofArchive layeredArchive = ofArchive layeredEntries := by
  have hfolder : IsFolder "out/dist/" := by decide
  have hmem : ⟨"package.json", "\x7b\x7d".toUTF8⟩ ∈ layeredEntries := by decide
  have hbeside : (layeredArchive.filter fun entry => ¬ IsBeside "out/dist/" entry) =
      layeredEntries.map (·.inFolder "out/dist/") := by decide
  obtain ⟨hwrapped, hadded⟩ := wrapped_archive_loaded_alike hfolder hmem rfl (by decide)
  have hnamed : (layeredEntries.filter (·.name != "")) = layeredEntries := by decide
  rw [hnamed] at hwrapped
  exact ⟨hfolder, hmem, hbeside, by decide, hwrapped, (hadded layeredArchive hbeside).trans hwrapped⟩

/-- An entry without a name is a file of the project at the top of an archive, and a directory in a folder. -/
theorem nameless_entry_left_out :
    let entries : List ArchiveEntry := [⟨"package.json", "\x7b\x7d".toUTF8⟩, ⟨"", "".toUTF8⟩]
    ⟨"package.json", "\x7b\x7d".toUTF8⟩ ∈ entries ∧ IsFolder "site/" ∧
    (ofArchive entries).toOption.map (·.project.paths) = some ["", "package.json"] ∧
    (ofArchive (entries.map (·.inFolder "site/"))).toOption.map (·.project.paths) = some ["package.json"] ∧
    ofArchive (entries.map (·.inFolder "site/")) ≠ ofArchive entries := by
  have htop : (ofArchive [⟨"package.json", "\x7b\x7d".toUTF8⟩, ⟨"", "".toUTF8⟩]).toOption.map (·.project.paths) =
      some ["", "package.json"] := by decide
  have hfolder : (ofArchive [⟨"site/package.json", "\x7b\x7d".toUTF8⟩, ⟨"site/", "".toUTF8⟩]).toOption.map
      (·.project.paths) = some ["package.json"] := by decide
  refine ⟨by decide, by decide, htop, hfolder, fun hsame => ?_⟩
  have hpaths := congrArg (fun loaded => loaded.toOption.map (·.project.paths)) hsame
  exact absurd (hfolder.symm.trans (hpaths.trans htop)) (by decide)

end LoadedProject
end SpaMigration
