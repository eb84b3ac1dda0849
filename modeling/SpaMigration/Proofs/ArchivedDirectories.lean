import SpaMigration.Proofs.ArchiveConfinement
import SpaMigration.Proofs.RouteCoverage

/-!
# Directories and their archives

A project can be loaded from a directory or from an archive of it. Both ways leave out the ignored
directories, put the files in the same order and find the same manifest. An archive holds texts, so that
files that are none are left out of it: the two projects have the same paths exactly when every file is a
text.
-/
namespace SpaMigration

namespace Text

/-- What is joined by separators is split at them again. -/
lemma splitOn_intercalate {c : Char} {pieces : List (List Char)} (hne : pieces ≠ [])
    (h : ∀ piece ∈ pieces, c ∉ piece) : splitOn c ([c].intercalate pieces) = pieces := by
  induction pieces with
  | nil => exact absurd rfl hne
  | cons piece rest ih =>
    obtain ⟨hpiece, hrest⟩ := List.forall_mem_cons.mp h
    cases rest with
    | nil => simpa using splitOn_of_notMem hpiece
    | cons next others =>
      have hjoined : [c].intercalate (piece :: next :: others) =
          piece ++ c :: [c].intercalate (next :: others) := by simp [List.intercalate]
      rw [hjoined, splitOn_append_cons, splitOn_of_notMem hpiece, ih (List.cons_ne_nil _ _) hrest]
      rfl

lemma mem_intercalate {c d : Char} {pieces : List (List Char)} (h : d ∈ [c].intercalate pieces) :
    d = c ∨ ∃ piece ∈ pieces, d ∈ piece := by
  induction pieces with
  | nil => simp at h
  | cons piece rest ih =>
    cases rest with
    | nil => exact .inr ⟨piece, List.mem_cons_self, by simpa using h⟩
    | cons next others =>
      have hjoined : [c].intercalate (piece :: next :: others) =
          piece ++ c :: [c].intercalate (next :: others) := by simp [List.intercalate]
      rw [hjoined, List.mem_append, List.mem_cons] at h
      rcases h with h | h | h
      · exact .inr ⟨piece, List.mem_cons_self, h⟩
      · exact .inl h
      · obtain hc | ⟨found, hfound, hd⟩ := ih h
        · exact .inl hc
        · exact .inr ⟨found, List.mem_cons_of_mem _ hfound, hd⟩

/-- Bytes are those of a text exactly when the text is decoded from them. -/
lemma fromUTF8?_eq_some_iff {bytes : ByteArray} {text : String} :
    String.fromUTF8? bytes = some text ↔ text.toUTF8 = bytes := by
  constructor
  · intro h
    simp only [String.fromUTF8?] at h
    split_ifs at h
    cases h
    rfl
  · rintro rfl
    have hvalid : text.toUTF8.IsValidUTF8 := text.isValidUTF8
    rw [String.fromUTF8?, dif_pos hvalid]
    rfl

end Text

namespace ProjectFile

/-- The file with its text in memory, if it is a text. -/
def asText? (file : ProjectFile) : Option ProjectFile :=
  file.read.toOption.map fun text => ⟨file.path, .inMemory text⟩

/-- The file is a text. -/
def isText (file : ProjectFile) : Bool := file.asText?.isSome

/-- The path and the bytes of a file. -/
def pathAndBytes (file : ProjectFile) : String × Option ByteArray := (file.path, file.bytes?)

lemma bytes?_of_read {file : ProjectFile} {text : String} (h : file.read = .ok text) :
    file.bytes? = some text.toUTF8 := by
  obtain ⟨path, content⟩ := file
  cases content with
  | inMemory held =>
    cases h
    rfl
  | onDisk location bytes =>
    cases bytes with
    | none => cases h
    | some bytes =>
      cases hdecoded : String.fromUTF8? bytes with
      | none => simp [read, hdecoded] at h
      | some decoded =>
        simp only [read, hdecoded, Except.ok.injEq] at h
        rw [bytes?, ← h, Text.fromUTF8?_eq_some_iff.mp hdecoded]

/-- A text has the same path and the same bytes in memory. -/
lemma pathAndBytes_of_asText? {file other : ProjectFile} (h : file.asText? = some other) :
    other.pathAndBytes = file.pathAndBytes := by
  obtain ⟨text, hread, rfl⟩ := Option.map_eq_some_iff.mp h
  cases hfile : file.read with
  | error e => simp [hfile, Except.toOption] at hread
  | ok found =>
    simp only [hfile, Except.toOption, Option.some.injEq] at hread
    rw [pathAndBytes, pathAndBytes, bytes?_of_read hfile, hread]
    rfl

lemma path_of_asText? {file other : ProjectFile} (h : file.asText? = some other) :
    other.path = file.path := congrArg Prod.fst (pathAndBytes_of_asText? h)

/-- The texts among files have the paths and the bytes that they have in memory. -/
lemma map_filterMap_asText? (files : List ProjectFile) :
    (files.filterMap asText?).map pathAndBytes = (files.filter isText).map pathAndBytes := by
  induction files with
  | nil => rfl
  | cons file rest ih =>
    cases hfile : file.asText? with
    | none => simp [hfile, isText, ih]
    | some other => simp [hfile, isText, ih, pathAndBytes_of_asText? hfile]

/-- No path is missing among the texts exactly when all files are texts. -/
lemma paths_filterMap_asText?_iff {project : Project} :
    Project.paths (project.filterMap asText?) = project.paths ↔ ∀ file ∈ project, file.isText := by
  have hpaths : Project.paths (project.filterMap asText?) = Project.paths (project.filter isText) := by
    simpa [Project.paths, pathAndBytes, Function.comp_def] using
      congrArg (List.map Prod.fst) (map_filterMap_asText? project)
  rw [hpaths]
  constructor
  · intro h
    have hlength : (project.filter isText).length = project.length := by
      simpa [Project.paths] using congrArg List.length h
    exact List.length_filter_eq_length_iff.mp hlength
  · intro h
    rw [List.filter_eq_self.mpr h]

end ProjectFile

namespace Project

lemma insertByPath_of_forall_le {file : ProjectFile} {project : Project}
    (h : ∀ other ∈ project, file.path ≤ other.path) : insertByPath file project = file :: project := by
  cases project with
  | nil => rfl
  | cons other rest => rw [insertByPath, if_pos (h other List.mem_cons_self)]

/-- The files are in order of their paths. -/
def IsSorted (project : Project) : Prop := project.Pairwise fun first second => first.path ≤ second.path

lemma isSorted_insertByPath {file : ProjectFile} {project : Project} (h : IsSorted project) :
    IsSorted (insertByPath file project) := by
  induction project with
  | nil => exact List.pairwise_singleton _ _
  | cons other rest ih =>
    obtain ⟨hother, hrest⟩ := List.pairwise_cons.mp h
    simp only [insertByPath]
    split_ifs with hle
    · refine List.pairwise_cons.mpr ⟨fun next hnext => ?_, h⟩
      rcases List.mem_cons.mp hnext with rfl | hnext
      · exact hle
      · exact String.le_trans hle (hother next hnext)
    · refine List.pairwise_cons.mpr ⟨fun next hnext => ?_, ih hrest⟩
      rcases List.mem_cons.mp ((insertByPath_perm file rest).mem_iff.mp hnext) with rfl | hnext
      · exact (String.le_total other.path next.path).resolve_right hle
      · exact hother next hnext

lemma isSorted_sortByPath (project : Project) : IsSorted (sortByPath project) := by
  induction project with
  | nil => exact List.Pairwise.nil
  | cons file rest ih => exact isSorted_insertByPath ih

variable {change : ProjectFile → Option ProjectFile}

lemma filterMap_insertByPath (hchange : ∀ {file other}, change file = some other → other.path = file.path)
    {file : ProjectFile} {project : Project} (h : IsSorted project) :
    (insertByPath file project).filterMap change =
      (change file).elim (project.filterMap change) (insertByPath · (project.filterMap change)) := by
  induction project with
  | nil => cases hfile : change file <;> simp [insertByPath, hfile]
  | cons next rest ih =>
    obtain ⟨hnext, hrest⟩ := List.pairwise_cons.mp h
    by_cases hle : file.path ≤ next.path
    · rw [insertByPath, if_pos hle]
      cases hfile : change file with
      | none => simp [hfile]
      | some other =>
        rw [List.filterMap_cons_some hfile, Option.elim_some, insertByPath_of_forall_le]
        intro behind hbehind
        obtain ⟨source, hsource, hsame⟩ := List.mem_filterMap.mp hbehind
        rw [hchange hfile, hchange hsame]
        rcases List.mem_cons.mp hsource with rfl | hsource
        · exact hle
        · exact String.le_trans hle (hnext source hsource)
    · rw [insertByPath, if_neg hle]
      cases hnext' : change next with
      | none => rw [List.filterMap_cons_none hnext', List.filterMap_cons_none hnext', ih hrest]
      | some kept =>
        rw [List.filterMap_cons_some hnext', List.filterMap_cons_some hnext', ih hrest]
        cases hfile : change file with
        | none => rfl
        | some other =>
          have hbehind : ¬ other.path ≤ kept.path := by rwa [hchange hfile, hchange hnext']
          simp only [Option.elim_some, insertByPath, if_neg hbehind]

/-- Files that are changed or left out one by one can be sorted before or after that, as long as they keep
their paths. -/
lemma sortByPath_filterMap (hchange : ∀ {file other}, change file = some other → other.path = file.path)
    (project : Project) : sortByPath (project.filterMap change) = (sortByPath project).filterMap change := by
  induction project with
  | nil => rfl
  | cons file rest ih =>
    rw [sortByPath, filterMap_insertByPath hchange (isSorted_sortByPath rest), ← ih]
    cases hfile : change file <;> simp [hfile, sortByPath]

end Project

/-- A name that a file or a directory can have, and that no kind of slash is in. -/
structure IsEntryName (name : String) : Prop where
  nonempty : name ≠ ""
  noSlash : '/' ∉ name.toList
  noBackslash : '\\' ∉ name.toList

instance (name : String) : Decidable (IsEntryName name) :=
  decidable_of_iff (name ≠ "" ∧ '/' ∉ name.toList ∧ '\\' ∉ name.toList)
    ⟨fun h => ⟨h.1, h.2.1, h.2.2⟩, fun h => ⟨h.nonempty, h.noSlash, h.noBackslash⟩⟩

/-- Names that lead from a directory to a file below it. -/
structure LeadsBelow (names : List String) : Prop where
  nonempty : names ≠ []
  isName : ∀ name ∈ names, IsEntryName name

instance (names : List String) : Decidable (LeadsBelow names) :=
  decidable_of_iff (names ≠ [] ∧ ∀ name ∈ names, IsEntryName name)
    ⟨fun h => ⟨h.1, h.2⟩, fun h => ⟨h.nonempty, h.isName⟩⟩

namespace LeadsBelow

variable {names : List String}

lemma segments_eq (h : LeadsBelow names) :
    ProjectPath.segments (String.intercalate "/" names) = names := by
  have hslash : "/".toList = ['/'] := rfl
  have hpieces : ∀ piece ∈ names.map String.toList, '/' ∉ piece := by
    intro piece hpiece
    obtain ⟨name, hname, rfl⟩ := List.mem_map.mp hpiece
    exact (h.isName name hname).noSlash
  rw [ProjectPath.segments, String.toList_intercalate, hslash,
    Text.splitOn_intercalate (by simpa using h.nonempty) hpieces, List.map_map]
  simp [Function.comp_def]

lemma isIgnored_eq (h : LeadsBelow names) :
    ProjectPath.isIgnored (String.intercalate "/" names) =
      names.any ProjectPath.ignoredDirectories.contains := by
  rw [ProjectPath.isIgnored, h.segments_eq]

lemma backslash_notMem (h : LeadsBelow names) : '\\' ∉ (String.intercalate "/" names).toList := by
  intro hin
  rw [String.toList_intercalate] at hin
  rcases Text.mem_intercalate hin with hslash | ⟨piece, hpiece, hin⟩
  · exact absurd hslash (by decide)
  · obtain ⟨name, hname, rfl⟩ := List.mem_map.mp hpiece
    exact (h.isName name hname).noBackslash hin

/-- A path of names does not end in a slash. -/
lemma isDirectoryName_eq (h : LeadsBelow names) :
    LoadedProject.isDirectoryName (String.intercalate "/" names) = false := by
  rw [LoadedProject.isDirectoryName]
  cases hlast : (String.intercalate "/" names).toList.getLast? with
  | none => rfl
  | some c =>
    have hbackslash : c ≠ '\\' := fun hc => h.backslash_notMem (hc ▸ List.mem_of_getLast? hlast)
    have hslash : c ≠ '/' := by
      rintro rfl
      obtain ⟨before, hbefore⟩ := List.getLast?_eq_some_iff.mp hlast
      -- There would be an empty name behind the slash.
      have hsegments := h.segments_eq
      rw [ProjectPath.segments, hbefore, Text.splitOn_append_cons] at hsegments
      refine (h.isName "" ?_).nonempty rfl
      rw [← hsegments]
      simp [Text.splitOn]
    simp [hslash, hbackslash]

/-- The name of the entry is kept as it is. -/
lemma slashed_eq (h : LeadsBelow names) :
    LoadedProject.slashed (String.intercalate "/" names) = (String.intercalate "/" names).toList :=
  LoadedProject.slashed_eq_self h.backslash_notMem

/-- Only one name leads to what has one name for its path. -/
lemma eq_singleton_iff (h : LeadsBelow names) {name : String} (hname : '/' ∉ name.toList) :
    String.intercalate "/" names = name ↔ names = [name] := by
  constructor
  · intro heq
    have hsegments := h.segments_eq
    rw [heq, ProjectPath.segments, Text.splitOn_of_notMem hname] at hsegments
    simpa using hsegments.symm
  · rintro rfl
    simp

end LeadsBelow

namespace DiskPath

/-- A joined path ends like the path that is joined. -/
lemma getLast?_join (directory : String) {path : String} {c : Char} (h : path.toList.getLast? = some c) :
    (join directory path).toList.getLast? = some c := by
  simp only [join]
  split_ifs
  · exact h
  · rw [String.toList_append, List.getLast?_append, h]
    rfl
  · rw [String.toList_append, List.getLast?_append, h]
    rfl

lemma endsAsDirectory_eq_false {path : String} {c : Char} (h : path.toList.getLast? = some c)
    (hslash : c ≠ '/') (hdot : c ≠ '.') : endsAsDirectory path = false := by
  have hends : ∀ (before : List Char) {d : Char}, c ≠ d →
      Text.endsWith path.toList (before ++ [d]) = false := by
    intro before d hd
    rw [Bool.eq_false_iff]
    intro hend
    obtain ⟨front, hfront⟩ := Text.endsWith_iff.mp hend
    rw [← hfront, ← List.append_assoc, List.getLast?_concat] at h
    exact hd (Option.some.inj h).symm
  have hempty : path.isEmpty = false := by
    rw [Bool.eq_false_iff]
    intro hempty
    rw [String.isEmpty_iff.mp hempty] at h
    simp at h
  have hfirst := hends [] hslash
  have hsecond := hends ['/'] hdot
  simp only [List.nil_append, List.singleton_append] at hfirst hsecond
  simp [endsAsDirectory, hempty, hfirst, hsecond]

end DiskPath

namespace Disk

/-- The files below a directory are the entries of the disk whose locations go on from there. -/
lemma mem_filesBelow_iff {disk : Disk} {place : List String} {found : List String × DiskEntry} :
    found ∈ disk.filesBelow place ↔ (place ++ found.1, found.2) ∈ disk ∧ found.2 ≠ .directory := by
  rw [filesBelow, List.mem_filterMap]
  constructor
  · rintro ⟨⟨location, entry⟩, hentry, h⟩
    have hbelow : (if place.isPrefixOf location then some (location.drop place.length, entry) else none) =
        some found ∧ entry ≠ .directory := by cases entry <;> simp_all
    obtain ⟨hfound, hfile⟩ := hbelow
    split_ifs at hfound with hstarts
    cases hfound
    obtain ⟨names, rfl⟩ := List.isPrefixOf_iff_prefix.mp hstarts
    exact ⟨by simpa using hentry, hfile⟩
  · rintro ⟨hentry, hfile⟩
    refine ⟨_, hentry, ?_⟩
    obtain ⟨names, entry⟩ := found
    cases entry <;> simp at hfile ⊢

end Disk

/-- A tree of regular files below a directory: nothing stands twice at one place, and names lead to files. -/
structure IsFileTree (disk : Disk) (directory : String) : Prop where
  distinct : (disk.map (·.1)).Nodup
  leads : ∀ found ∈ disk.filesBelow (DiskPath.location directory), LeadsBelow found.1
  isFile : ∀ found ∈ disk.filesBelow (DiskPath.location directory), ∃ bytes, found.2 = .file bytes

namespace LoadedProject

open DiskPath

/-- No part of the way to a file is an ignored directory. -/
def isKept (names : List String) : Bool := !names.any ProjectPath.ignoredDirectories.contains

/-- The files of the project in a directory, in the order of the disk. -/
def keptFiles (disk : Disk) (directory : String) : List (List String × DiskEntry) :=
  (disk.filesBelow (location directory)).filter fun found => isKept found.1

/-- The path and the text of a file that is a text. -/
def textOf? (found : List String × DiskEntry) : Option (String × String) :=
  match found.2 with
  | .file bytes => (String.fromUTF8? bytes).map (String.intercalate "/" found.1, ·)
  | _ => none

lemma textEntries_archiveOf {disk : Disk} {directory : String} (h : IsFileTree disk directory) :
    textEntries (Output.archiveOf disk directory) =
      (disk.filesBelow (location directory)).filterMap textOf? := by
  rw [textEntries, Output.archiveOf, List.filterMap_map]
  refine List.filterMap_congr fun found hfound => ?_
  obtain ⟨names, entry⟩ := found
  obtain ⟨bytes, rfl⟩ := h.isFile _ hfound
  have hleads := h.leads _ hfound
  have hslashed := hleads.slashed_eq
  rw [slashed] at hslashed
  simp only [Function.comp_apply, hleads.isDirectoryName_eq, Bool.false_eq_true, if_false, hslashed,
    String.ofList_toList, textOf?]

/-- The manifest of the directory itself is what the project of an archive starts at. -/
lemma shortest_eq_empty {texts : List String} (h : "" ∈ texts) : shortest texts = some "" := by
  induction texts with
  | nil => simp at h
  | cons s rest ih =>
    rw [shortest]
    rcases List.mem_cons.mp h with rfl | h
    · cases shortest rest with
      | none => rfl
      | some other => simp
    · rw [ih h]
      simp only
      split_ifs with hsize
      · have hzero : s.utf8ByteSize = 0 := Nat.le_zero.mp hsize
        rw [String.utf8ByteSize_eq_zero_iff.mp hzero]
      · rfl

lemma rootOf_eq {entries : List (String × String)} {text : String} (h : (manifestName, text) ∈ entries) :
    rootOf entries = "" := by
  have hempty : "" ∈ entries.filterMap fun entry => wrapper? entry.1 :=
    List.mem_filterMap.mpr ⟨_, h, by simp [wrapper?]⟩
  rw [rootOf, shortest_eq_empty hempty]
  rfl

lemma projectEntries_eq {entries : List (String × String)} {text : String}
    (h : (manifestName, text) ∈ entries) :
    projectEntries entries = entries.filter fun entry => !ProjectPath.isIgnored entry.1 := by
  rw [projectEntries, rootOf_eq h, ← List.filterMap_eq_filter]
  refine List.filterMap_congr fun entry _ => ?_
  cases hignored : ProjectPath.isIgnored entry.1 with
  | false => simp [Text.dropPrefix?, hignored, Option.guard]
  | true => simp [Text.dropPrefix?, hignored, Option.guard]

/-- The entries of the project in an archive of a directory are its files that are texts. -/
lemma projectEntries_archiveOf {disk : Disk} {directory text : String} (h : IsFileTree disk directory)
    (hmanifest : (manifestName, text) ∈ textEntries (Output.archiveOf disk directory)) :
    projectEntries (textEntries (Output.archiveOf disk directory)) =
      (keptFiles disk directory).filterMap textOf? := by
  rw [projectEntries_eq hmanifest, textEntries_archiveOf h, List.filter_filterMap, keptFiles,
    List.filterMap_filter]
  refine List.filterMap_congr fun found hfound => ?_
  obtain ⟨names, entry⟩ := found
  obtain ⟨bytes, rfl⟩ := h.isFile _ hfound
  have hignored := (h.leads _ hfound).isIgnored_eq
  cases htext : String.fromUTF8? bytes with
  | none => simp [textOf?, htext]
  | some text => simp [textOf?, htext, isKept, hignored, Option.filter]

/-- In memory the files of the directory that are texts are the files of the archive. -/
lemma filterMap_textOf? {disk : Disk} {directory : String} (h : IsFileTree disk directory) :
    ((keptFiles disk directory).filterMap textOf?).map (fun (path, text) => ⟨path, .inMemory text⟩) =
      ((keptFiles disk directory).map (diskFile directory)).filterMap ProjectFile.asText? := by
  rw [List.map_filterMap, List.filterMap_map]
  refine List.filterMap_congr fun found hfound => ?_
  obtain ⟨names, entry⟩ := found
  obtain ⟨bytes, rfl⟩ := h.isFile _ (List.mem_of_mem_filter hfound)
  cases htext : String.fromUTF8? bytes with
  | none => simp [textOf?, diskFile, ProjectFile.asText?, ProjectFile.read, Except.toOption, htext]
  | some text => simp [textOf?, diskFile, ProjectFile.asText?, ProjectFile.read, Except.toOption, htext]

/-- The manifest of a directory: a file with a text that is valid. -/
structure HasManifest (disk : Disk) (directory text : String) (manifest : Json) : Prop where
  isStored : disk.get? (location directory ++ [manifestName]) = some (.file text.toUTF8)
  isValid : Json.parseCanonical? text = some manifest

lemma parseManifest_eq {text : String} {manifest : Json} (h : Json.parseCanonical? text = some manifest) :
    parseManifest text = .ok manifest := by
  rw [parseManifest, h]

variable {disk : Disk} {directory text : String} {manifest : Json}

lemma HasManifest.mem_filesBelow (h : HasManifest disk directory text manifest) :
    ([manifestName], DiskEntry.file text.toUTF8) ∈ disk.filesBelow (location directory) := by
  have hplace : ((location directory ++ [manifestName]).isEmpty ||
      location directory ++ [manifestName] == ["/"]) = false := by
    cases location directory with
    | nil => decide
    | cons name rest => simp
  have hstored := h.isStored
  rw [Disk.get?, hplace, if_neg Bool.false_ne_true] at hstored
  obtain ⟨⟨place, entry⟩, hfound, rfl⟩ := Option.map_eq_some_iff.mp hstored
  have hsame : place = location directory ++ [manifestName] := by simpa using List.find?_some hfound
  subst hsame
  exact Disk.mem_filesBelow_iff.mpr ⟨List.mem_of_find?_eq_some hfound, DiskEntry.noConfusion⟩

lemma textOf?_manifest (text : String) :
    textOf? ([manifestName], DiskEntry.file text.toUTF8) = some (manifestName, text) := by
  have htext := Text.fromUTF8?_eq_some_iff.mpr (Eq.refl text.toUTF8)
  simp only [textOf?, htext]
  rfl

/-- The manifest is a text of the project. -/
lemma HasManifest.mem_texts (h : HasManifest disk directory text manifest) :
    (manifestName, text) ∈ (keptFiles disk directory).filterMap textOf? := by
  have hkept : ([manifestName], DiskEntry.file text.toUTF8) ∈ keptFiles disk directory :=
    List.mem_filter.mpr ⟨h.mem_filesBelow, (by decide : isKept [manifestName] = true)⟩
  exact List.mem_filterMap.mpr ⟨_, hkept, textOf?_manifest text⟩

/-- What has the path of the manifest is the manifest. -/
lemma HasManifest.text_eq (h : HasManifest disk directory text manifest) (htree : IsFileTree disk directory)
    {found : String} (hfound : (manifestName, found) ∈ (keptFiles disk directory).filterMap textOf?) :
    found = text := by
  obtain ⟨⟨names, entry⟩, hkept, htext⟩ := List.mem_filterMap.mp hfound
  have hbelow := List.mem_of_mem_filter hkept
  obtain ⟨bytes, rfl⟩ := htree.isFile _ hbelow
  obtain ⟨decoded, hdecoded, hpair⟩ := Option.map_eq_some_iff.mp htext
  obtain ⟨hnames, rfl⟩ := Prod.mk.inj hpair
  obtain rfl := ((htree.leads _ hbelow).eq_singleton_iff (by decide)).mp hnames
  have hsame := List.inj_on_of_nodup_map htree.distinct (Disk.mem_filesBelow_iff.mp hbelow).1
    (Disk.mem_filesBelow_iff.mp h.mem_filesBelow).1 rfl
  simp only [Prod.mk.injEq, DiskEntry.file.injEq, true_and] at hsame
  have hbytes := Text.fromUTF8?_eq_some_iff.mp hdecoded
  rw [hsame] at hbytes
  exact String.toByteArray_inj.mp hbytes

lemma mapM_eq_ok {α β : Type} {f : α → Except LoadError β} {items : List α} {value : β}
    (h : ∀ item ∈ items, f item = .ok value) : items.mapM f = .ok (items.map fun _ => value) := by
  induction items with
  | nil => rfl
  | cons item rest ih =>
    obtain ⟨hitem, hrest⟩ := List.forall_mem_cons.mp h
    rw [List.mapM_cons, hitem, ih hrest]
    rfl

lemma ofArchive_archiveOf (h : HasManifest disk directory text manifest) (htree : IsFileTree disk directory) :
    ofArchive (Output.archiveOf disk directory) = .ok
      { project := Project.sortByPath
          (((keptFiles disk directory).map (diskFile directory)).filterMap ProjectFile.asText?)
        manifest := some manifest } := by
  have hentries : (manifestName, text) ∈ textEntries (Output.archiveOf disk directory) := by
    rw [textEntries_archiveOf htree]
    exact List.mem_filterMap.mpr ⟨_, h.mem_filesBelow, textOf?_manifest text⟩
  have hmanifests : (((keptFiles disk directory).filterMap textOf?).filter (·.1 == manifestName)).mapM
      (fun (_, text) => parseManifest text) = .ok
        ((((keptFiles disk directory).filterMap textOf?).filter (·.1 == manifestName)).map
          fun _ => manifest) := by
    refine mapM_eq_ok fun ⟨path, found⟩ hfound => ?_
    obtain ⟨hfound, hpath⟩ := List.mem_filter.mp hfound
    obtain rfl : path = manifestName := by simpa using hpath
    rw [h.text_eq htree hfound]
    exact parseManifest_eq h.isValid
  have hlast : ((((keptFiles disk directory).filterMap textOf?).filter (·.1 == manifestName)).map
      fun _ => manifest).getLast? = some manifest := by
    have hmem : (manifestName, text) ∈
        ((keptFiles disk directory).filterMap textOf?).filter (·.1 == manifestName) :=
      List.mem_filter.mpr ⟨h.mem_texts, by simp⟩
    rw [List.map_const', List.getLast?_replicate, if_neg]
    exact fun hzero => List.ne_nil_of_mem hmem (List.length_eq_zero_iff.mp hzero)
  simp only [ofArchive, projectEntries_archiveOf htree hentries]
  rw [hmanifests]
  simp only [bind, Except.bind, pure, Except.pure, hlast]
  rw [filterMap_textOf? htree]

lemma ofDirectory_eq (h : HasManifest disk directory text manifest) :
    ofDirectory disk directory =
      .ok ⟨Project.sortByPath ((keptFiles disk directory).map (diskFile directory)), some manifest⟩ := by
  have hfile : disk.isFile (location directory ++ [manifestName]) = true := by
    rw [Disk.isFile, h.isStored]
  have hread : disk.readText? (DiskPath.join directory manifestName) = some text := by
    have hlast : manifestName.toList.getLast? = some 'n' := by decide
    have hplace : location (DiskPath.join directory manifestName) = location directory ++ [manifestName] :=
      IsConfined.location_join (by decide) directory
    have hend := endsAsDirectory_eq_false (getLast?_join directory hlast) (by decide) (by decide)
    rw [Disk.readText?, Disk.readBytes?, hend, hplace, h.isStored]
    exact Text.fromUTF8?_eq_some_iff.mpr rfl
  simp only [ofDirectory, hfile, if_true, hread, parseManifest_eq h.isValid]
  rfl

/-- A directory with a manifest and an archive of it are loaded as the same project, but for the files that
are no texts: these are left out of the project of the archive. The other files have the same paths and bytes
and stand in the same order, and the manifest is the same. So the paths are the same exactly when every file
is a text. -/
theorem archive_loads_texts (htree : IsFileTree disk directory)
    (hmanifest : HasManifest disk directory text manifest) :
    ∃ ofTree ofEntries, ofDirectory disk directory = .ok ofTree ∧
      ofArchive (Output.archiveOf disk directory) = .ok ofEntries ∧
      ofTree.manifest = some manifest ∧ ofEntries.manifest = some manifest ∧
      ofEntries.project.map ProjectFile.pathAndBytes =
        (ofTree.project.filter ProjectFile.isText).map ProjectFile.pathAndBytes ∧
      (ofEntries.project.paths = ofTree.project.paths ↔ ∀ file ∈ ofTree.project, file.isText) := by
  refine ⟨_, _, ofDirectory_eq hmanifest, ofArchive_archiveOf hmanifest htree, rfl, rfl, ?_, ?_⟩
  · rw [Project.sortByPath_filterMap ProjectFile.path_of_asText?]
    exact ProjectFile.map_filterMap_asText? _
  · rw [Project.sortByPath_filterMap ProjectFile.path_of_asText?]
    exact ProjectFile.paths_filterMap_asText?_iff

/-- A directory with a picture, a manifest and an ignored directory. -/
def pictureDisk : Disk :=
  [(["app"], .directory), (["app", "logo.png"], .file ⟨#[0xff]⟩), (["app", "dist"], .directory),
   (["app", "dist", "package.json"], .file "Notes".toUTF8),
   (["app", "package.json"], .file "\x7b\x7d".toUTF8)]

lemma isFileTree_pictureDisk : IsFileTree pictureDisk "app" := by
  have hfiles : pictureDisk.filesBelow (location "app") = [(["logo.png"], .file ⟨#[0xff]⟩),
      (["dist", "package.json"], .file "Notes".toUTF8), (["package.json"], .file "\x7b\x7d".toUTF8)] := by
    decide
  refine ⟨by decide, by decide, fun found hfound => ?_⟩
  rw [hfiles] at hfound
  simp only [List.mem_cons, List.not_mem_nil, or_false] at hfound
  rcases hfound with rfl | rfl | rfl <;> exact ⟨_, rfl⟩

lemma hasManifest_pictureDisk : HasManifest pictureDisk "app" "\x7b\x7d" (.object []) :=
  ⟨by decide, rfl⟩

theorem archive_loads_texts_pictureDisk :
    IsFileTree pictureDisk "app" ∧ HasManifest pictureDisk "app" "\x7b\x7d" (.object []) ∧
    ∃ ofTree ofEntries, ofDirectory pictureDisk "app" = .ok ofTree ∧
      ofArchive (Output.archiveOf pictureDisk "app") = .ok ofEntries ∧
      ofEntries.manifest = some (.object []) ∧
      ofEntries.project.map ProjectFile.pathAndBytes =
        (ofTree.project.filter ProjectFile.isText).map ProjectFile.pathAndBytes := by
  obtain ⟨ofTree, ofEntries, htree, hentries, _, hmanifest, htexts, _⟩ :=
    archive_loads_texts isFileTree_pictureDisk hasManifest_pictureDisk
  exact ⟨isFileTree_pictureDisk, hasManifest_pictureDisk, ofTree, ofEntries, htree, hentries, hmanifest,
    htexts⟩

/-- A picture is a file of the project in a directory, but not of the project in its archive. -/
theorem picture_left_out :
    IsFileTree pictureDisk "app" ∧ HasManifest pictureDisk "app" "\x7b\x7d" (.object []) ∧
    (ofDirectory pictureDisk "app").toOption.map (·.project.paths) = some ["logo.png", "package.json"] ∧
    (ofArchive (Output.archiveOf pictureDisk "app")).toOption.map (·.project.paths) =
      some ["package.json"] :=
  ⟨isFileTree_pictureDisk, hasManifest_pictureDisk, by decide, by decide⟩

end LoadedProject

end SpaMigration
