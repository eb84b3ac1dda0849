import SpaMigration.Output
import SpaMigration.Proofs.DiskPaths

/-!
# What writing leaves on a disk

A step of writing changes the disk in two ways only: it makes directories where nothing stood, on its way,
and it puts the entry at its target. From this follows what a whole run of writing leaves: everything else
is as it was, and at each target stands what was written there last.
-/
namespace SpaMigration

open DiskPath

namespace Disk

@[simp] lemma isDirectory_eq_true_iff {disk : Disk} {place : List String} :
    disk.isDirectory place = true ↔ disk.get? place = some .directory := by
  unfold isDirectory
  split <;> simp_all

lemma isFile_eq_true_iff {disk : Disk} {place : List String} :
    disk.isFile place = true ↔ disk.get? place ≠ none ∧ disk.get? place ≠ some .directory := by
  unfold isFile
  split <;> simp_all

/-- No file stands below a directory when the disk has no entry there. -/
lemma isFile_eq_false_of_forall {disk : Disk} {directory : List String}
    (h : ∀ entry ∈ disk, ¬ directory <+: entry.1) (place : List String) (hplace : directory <+: place) :
    disk.isFile place = false := by
  by_contra hfile
  obtain ⟨hsome, hdir⟩ := isFile_eq_true_iff.mp (Bool.of_not_eq_false hfile)
  simp only [get?] at hsome hdir
  split_ifs at hsome hdir
  · simp at hdir
  · obtain ⟨entry, hfind⟩ := Option.ne_none_iff_exists'.mp (mt Option.map_eq_none_iff.mpr hsome)
    have hkey := List.find?_some hfind
    exact h entry (List.mem_of_find?_eq_some hfind) (beq_iff_eq.mp hkey ▸ hplace)

/-- An entry that is put at a place stands there, unless the place is a directory. -/
lemma get?_put_self {disk : Disk} {place : List String} (h : disk.isDirectory place = false)
    (entry : DiskEntry) : (disk.put place entry).get? place = some entry := by
  have htop : ¬ (place.isEmpty || place == ["/"]) = true := by
    intro htop
    have hdir : disk.isDirectory place = true := by
      rw [isDirectory_eq_true_iff, get?, if_pos htop]
    simp [hdir] at h
  clear h
  simp only [get?, put, if_neg htop]
  split_ifs with hin
  · induction disk with
    | nil => simp at hin
    | cons first rest ih =>
      rw [List.map_cons, List.find?_cons]
      by_cases hfirst : first.1 = place
      · simp [hfirst]
      · have hrest : rest.any (·.1 == place) = true := by simpa [hfirst] using hin
        simp only [beq_eq_false_iff_ne.mpr hfirst, Bool.false_eq_true, if_false]
        exact ih hrest
  · have hnone : disk.find? (·.1 == place) = none := by
      rw [List.find?_eq_none]
      exact fun other ho hother => hin (List.any_eq_true.mpr ⟨other, ho, hother⟩)
    simp [List.find?_append, hnone]

/-- Putting an entry somewhere leaves every other place as it is. -/
lemma get?_put_of_ne {place other : List String} (h : other ≠ place) (disk : Disk) (entry : DiskEntry) :
    (disk.put place entry).get? other = disk.get? other := by
  have hplace : (place == other) = false := beq_eq_false_iff_ne.mpr (Ne.symm h)
  simp only [get?, put]
  split_ifs with htop hin
  · rfl
  · clear hin
    congr 1
    induction disk with
    | nil => rfl
    | cons first rest ih =>
      rw [List.map_cons, List.find?_cons, List.find?_cons, ih]
      by_cases hfirst : first.1 = place
      · simp only [hfirst, beq_self_eq_true, if_true, hplace]
      · simp only [beq_eq_false_iff_ne.mpr hfirst, Bool.false_eq_true, if_false]
  · simp [List.find?_append, hplace]

/-- How a disk is changed: a place is as it was, or nothing stood there and a directory was made, or it was
written to. -/
def Changed (made written : List String → Prop) (disk disk' : Disk) : Prop :=
  ∀ place, disk'.get? place = disk.get? place ∨
    (made place ∧ disk.get? place = none ∧ disk'.get? place = some .directory) ∨ written place

section Changed

variable {made written : List String → Prop} {disk disk₁ disk₂ : Disk}

lemma Changed.refl (made written : List String → Prop) (disk : Disk) : Changed made written disk disk :=
  fun _ => .inl rfl

lemma Changed.trans (h₁ : Changed made written disk disk₁) (h₂ : Changed made written disk₁ disk₂) :
    Changed made written disk disk₂ := by
  intro place
  rcases h₁ place with heq | ⟨hmade, hnone, hdir⟩ | hwritten
  · rw [← heq]
    exact h₂ place
  · rcases h₂ place with heq | ⟨_, hnone₁, _⟩ | hwritten
    · exact .inr (.inl ⟨hmade, hnone, heq.trans hdir⟩)
    · simp [hdir] at hnone₁
    · exact .inr (.inr hwritten)
  · exact .inr (.inr hwritten)

lemma Changed.mono {made' written' : List String → Prop} (h : Changed made written disk disk₁)
    (hmade : ∀ place, made place → made' place) (hwritten : ∀ place, written place → written' place) :
    Changed made' written' disk disk₁ := by
  intro place
  rcases h place with heq | ⟨hm, hentries⟩ | hw
  · exact .inl heq
  · exact .inr (.inl ⟨hmade place hm, hentries⟩)
  · exact .inr (.inr (hwritten place hw))

/-- What stands somewhere stays unless it is written over. -/
lemma Changed.get?_eq {place : List String} (h : Changed made written disk disk₁)
    (hentry : disk.get? place ≠ none) (hwritten : ¬ written place) :
    disk₁.get? place = disk.get? place := by
  rcases h place with heq | ⟨_, hnone, _⟩ | hw
  · exact heq
  · exact absurd hnone hentry
  · exact absurd hw hwritten

end Changed

/-- Following names makes directories on the way and does nothing else. -/
theorem makeDirectories_changed {steps place : List String} {disk disk' : Disk}
    (h : makeDirectories place steps disk = .ok disk') :
    Changed (fun other => ∃ ahead, ahead <+: steps ∧ other = ahead.foldl enter place) (fun _ => False)
      disk disk' := by
  induction steps generalizing place disk with
  | nil =>
    obtain rfl : disk = disk' := by simpa [makeDirectories] using h
    exact .refl _ _ _
  | cons name rest ih =>
    simp only [makeDirectories] at h
    split_ifs at h with hfile hdir
    · refine (ih h).mono ?_ fun _ hw => hw
      rintro other ⟨ahead, hahead, rfl⟩
      exact ⟨name :: ahead, List.cons_prefix_cons.mpr ⟨rfl, hahead⟩, rfl⟩
    · refine Changed.trans ?_ ((ih h).mono ?_ fun _ hw => hw)
      · intro other
        by_cases hother : other = enter place name
        · subst hother
          have hnone : disk.get? (enter place name) = none := by
            by_contra hsome
            exact hfile (isFile_eq_true_iff.mpr ⟨hsome, mt isDirectory_eq_true_iff.mpr hdir⟩)
          refine .inr (.inl ⟨⟨[name], by simp, rfl⟩, hnone, ?_⟩)
          exact get?_put_self (Bool.eq_false_iff.mpr hdir) _
        · exact .inl (get?_put_of_ne hother _ _)
      · rintro other ⟨ahead, hahead, rfl⟩
        exact ⟨name :: ahead, List.cons_prefix_cons.mpr ⟨rfl, hahead⟩, rfl⟩

lemma createDirectory_changed {path : String} {disk disk' : Disk}
    (h : disk.createDirectory path = .ok disk') :
    Changed (IsPassed path) (fun _ => False) disk disk' :=
  makeDirectories_changed h

lemma store?_eq_some {path : String} {entry : DiskEntry} {disk disk' : Disk}
    (h : disk.store? path entry = some disk') :
    disk.isDirectory (location path) = false ∧ disk' = disk.put (location path) entry := by
  simp only [store?, Bool.or_eq_true] at h
  split_ifs at h with hcond
  simp only [not_or, Bool.not_eq_true] at hcond
  exact ⟨hcond.1.2, (Option.some.inj h).symm⟩

lemma store?_get? {path : String} {entry : DiskEntry} {disk disk' : Disk}
    (h : disk.store? path entry = some disk') : disk'.get? (location path) = some entry := by
  obtain ⟨hdir, rfl⟩ := store?_eq_some h
  exact get?_put_self hdir entry

lemma store?_changed {path : String} {entry : DiskEntry} {disk disk' : Disk}
    (h : disk.store? path entry = some disk') (made : List String → Prop) :
    Changed made (· = location path) disk disk' := by
  obtain ⟨_, rfl⟩ := store?_eq_some h
  intro place
  by_cases hplace : place = location path
  · exact .inr (.inr hplace)
  · exact .inl (get?_put_of_ne hplace _ _)

/-- Copying takes a file that is there, and puts it at the target when that is another place. -/
lemma copy?_spec {source target : String} {disk disk' : Disk}
    (h : disk.copy? source target = some disk') :
    disk.isFile (location source) = true ∧
    (location source ≠ location target → disk'.get? (location target) = disk.get? (location source)) ∧
    ∀ made, Changed made (· = location target) disk disk' := by
  have hfile : disk.isFile (location source) = true := by
    rw [isFile_eq_true_iff]
    unfold copy? at h
    split at h <;> simp_all
  obtain ⟨emptied, hemptied, entry, hentry, hstore⟩ : ∃ emptied,
      disk.store? target (.file .empty) = some emptied ∧
      ∃ entry, emptied.get? (location source) = some entry ∧ emptied.store? target entry = some disk' := by
    unfold copy? at h
    split at h
    · simpa [Option.bind_eq_some_iff] using h
    · simpa [Option.bind_eq_some_iff] using h
    · simp at h
  refine ⟨hfile, fun hne => ?_, fun made => ?_⟩
  · rw [store?_get? hstore, ← hentry]
    obtain ⟨_, rfl⟩ := store?_eq_some hemptied
    exact get?_put_of_ne hne _ _
  · exact (store?_changed hemptied made).trans (store?_changed hstore made)

end Disk

namespace PlannedWrite

/-- The location that a write goes to. -/
def target (directory : String) (planned : PlannedWrite) : List String :=
  location (join directory planned.path)

/-- What is to stand at the target, with copied files taken from a disk. -/
def stored? (disk : Disk) (planned : PlannedWrite) : Option DiskEntry :=
  match planned.source with
  | .text content => some (.file content.toUTF8)
  | .copyOf source => disk.get? (location source)

end PlannedWrite

namespace Output

open Disk PlannedWrite

variable {directory : String} {disk disk' : Disk}

/-- A step makes directories on the way to its target and puts something there, also when it fails. -/
theorem writeOne_changed (directory : String) (disk : Disk) (planned : PlannedWrite) :
    Changed (IsPassed (join directory planned.path)) (· = planned.target directory) disk
      (writeOne directory disk planned).1 := by
  have hway : ∀ {disk₁}, disk.createDirectory (parent (join directory planned.path)) = .ok disk₁ →
      Changed (IsPassed (join directory planned.path)) (· = planned.target directory) disk disk₁ :=
    fun hmake => (createDirectory_changed hmake).mono (fun _ => IsPassed.of_parent) fun _ => False.elim
  unfold writeOne
  dsimp only
  split
  · exact .refl _ _ _
  · exact .refl _ _ _
  case _ content hmake _ =>
    split
    case _ hstore => exact (hway hmake).trans (store?_changed hstore _)
    case _ => exact hway hmake
  case _ source hmake _ =>
    split
    case _ hcopy => exact (hway hmake).trans ((copy?_spec hcopy).2.2 _)
    case _ => exact hway hmake

/-- What a step that succeeds has done. -/
lemma writeOne_eq_none {planned : PlannedWrite} (h : writeOne directory disk planned = (disk', none)) :
    ∃ disk₁, disk.createDirectory (parent (join directory planned.path)) = .ok disk₁ ∧
      ((∃ content, planned.source = .text content ∧
          disk₁.store? (join directory planned.path) (.file content.toUTF8) = some disk') ∨
        ∃ source, planned.source = .copyOf source ∧
          disk₁.copy? source (join directory planned.path) = some disk') := by
  unfold writeOne at h
  dsimp only at h
  split at h
  · simp at h
  · simp at h
  case _ disk₁ content hmake hs =>
    split at h
    case _ disk₂ hstore =>
      obtain rfl : disk₂ = disk' := (Prod.mk.inj h).1
      exact ⟨disk₁, hmake, .inl ⟨content, hs, hstore⟩⟩
    case _ => simp at h
  case _ disk₁ source hmake hs =>
    split at h
    case _ disk₂ hcopy =>
      obtain rfl : disk₂ = disk' := (Prod.mk.inj h).1
      exact ⟨disk₁, hmake, .inr ⟨source, hs, hcopy⟩⟩
    case _ => simp at h

/-- A step that succeeds leaves a file at its target: a copied file was there, and it is what stood at its
source unless that is the target itself. -/
theorem writeOne_get?_target {planned : PlannedWrite} (h : writeOne directory disk planned = (disk', none))
    (hapart : ∀ source, planned.source = .copyOf source → location source ≠ planned.target directory) :
    (∀ source, planned.source = .copyOf source → disk.isFile (location source) = true) ∧
    disk'.get? (planned.target directory) = planned.stored? disk := by
  obtain ⟨disk₁, hmake, ⟨content, hs, hstore⟩ | ⟨source, hs, hcopy⟩⟩ := writeOne_eq_none h
  · refine ⟨by simp [hs], ?_⟩
    rw [target, store?_get? hstore, stored?, hs]
  · obtain ⟨hfile, hget, _⟩ := copy?_spec hcopy
    -- The way to the target made no file, so the source stood there before.
    have hsource : disk₁.get? (location source) = disk.get? (location source) := by
      rcases createDirectory_changed hmake (location source) with heq | ⟨_, _, hdir⟩ | hfalse
      · exact heq
      · exact absurd hdir (isFile_eq_true_iff.mp hfile).2
      · exact hfalse.elim
    refine ⟨?_, ?_⟩
    · intro other hother
      obtain rfl : source = other := by simpa [hs] using hother
      rwa [isFile_eq_true_iff, ← hsource, ← isFile_eq_true_iff]
    · rw [target, hget (hapart source hs), hsource, stored?, hs]

lemma writeAll_cons_of_none {planned : PlannedWrite} (h : writeOne directory disk planned = (disk', none))
    (rest : List PlannedWrite) :
    writeAll directory (planned :: rest) disk = writeAll directory rest disk' := by
  simp [writeAll, h]

lemma writeAll_cons_of_some {planned : PlannedWrite} {e : WriteError}
    (h : writeOne directory disk planned = (disk', some e)) (rest : List PlannedWrite) :
    writeAll directory (planned :: rest) disk = (disk', some e) := by
  simp [writeAll, h]

/-- A run of writing changes what its steps change, up to the first failure. -/
theorem writeAll_changed (directory : String) (plan : List PlannedWrite) (disk : Disk) :
    Changed (fun place => ∃ planned ∈ plan, IsPassed (join directory planned.path) place)
      (fun place => ∃ planned ∈ plan, place = planned.target directory) disk
      (writeAll directory plan disk).1 := by
  induction plan generalizing disk with
  | nil => exact .refl _ _ _
  | cons planned rest ih =>
    have hstep : Changed (fun place => ∃ p ∈ planned :: rest, IsPassed (join directory p.path) place)
        (fun place => ∃ p ∈ planned :: rest, place = p.target directory) disk
        (writeOne directory disk planned).1 :=
      (writeOne_changed directory disk planned).mono
        (fun _ hp => ⟨planned, by simp, hp⟩) (fun _ hp => ⟨planned, by simp, hp⟩)
    rcases hone : writeOne directory disk planned with ⟨disk₁, _ | e⟩
    · rw [hone] at hstep
      rw [writeAll_cons_of_none hone]
      refine hstep.trans ((ih disk₁).mono ?_ ?_)
      · rintro place ⟨p, hp, hpassed⟩
        exact ⟨p, List.mem_cons_of_mem _ hp, hpassed⟩
      · rintro place ⟨p, hp, htarget⟩
        exact ⟨p, List.mem_cons_of_mem _ hp, htarget⟩
    · rw [hone] at hstep
      rw [writeAll_cons_of_some hone]
      exact hstep

lemma writeAll_cons_eq_none {planned : PlannedWrite} {rest : List PlannedWrite}
    (h : writeAll directory (planned :: rest) disk = (disk', none)) :
    ∃ disk₁, writeOne directory disk planned = (disk₁, none) ∧
      writeAll directory rest disk₁ = (disk', none) := by
  rcases hone : writeOne directory disk planned with ⟨disk₁, _ | e⟩
  · rw [writeAll_cons_of_none hone] at h
    exact ⟨disk₁, rfl, h⟩
  · rw [writeAll_cons_of_some hone] at h
    simp at h

lemma writeAll_append_eq_none {before after : List PlannedWrite}
    (h : writeAll directory (before ++ after) disk = (disk', none)) :
    ∃ disk₁, writeAll directory before disk = (disk₁, none) ∧
      writeAll directory after disk₁ = (disk', none) := by
  induction before generalizing disk with
  | nil => exact ⟨disk, rfl, h⟩
  | cons planned rest ih =>
    obtain ⟨disk₁, hone, hrest⟩ := writeAll_cons_eq_none h
    rw [writeAll_cons_of_none hone]
    exact ih hrest

/-- No file that is copied stands where something is written. -/
def SourcesApart (directory : String) (plan : List PlannedWrite) : Prop :=
  ∀ planned ∈ plan, ∀ source, planned.source = .copyOf source →
    ∀ other ∈ plan, location source ≠ other.target directory

/-- The last write to a place decides what stands there in the end. -/
theorem writeAll_get?_target {before after : List PlannedWrite} {planned : PlannedWrite}
    (h : writeAll directory (before ++ planned :: after) disk = (disk', none))
    (hapart : SourcesApart directory (before ++ planned :: after))
    (hlast : ∀ later ∈ after, later.target directory ≠ planned.target directory) :
    disk'.get? (planned.target directory) = planned.stored? disk ∧ planned.stored? disk ≠ none := by
  obtain ⟨disk₁, hbefore, hrest⟩ := writeAll_append_eq_none h
  have hchanged₁ := writeAll_changed directory before disk
  rw [hbefore] at hchanged₁
  obtain ⟨disk₂, hone, hafter⟩ := writeAll_cons_eq_none hrest
  have hmem : planned ∈ before ++ planned :: after := by simp
  obtain ⟨hfile, hget⟩ := writeOne_get?_target hone
    fun source hs => hapart planned hmem source hs planned hmem
  -- A file to be copied is still the one that stood there at first.
  have hsame : planned.stored? disk₁ = planned.stored? disk := by
    simp only [stored?]
    split
    · rfl
    case _ source hs =>
      rcases hchanged₁ (location source) with heq | ⟨_, _, hdir⟩ | ⟨other, hother, htarget⟩
      · exact heq
      · exact absurd hdir (isFile_eq_true_iff.mp (hfile source hs)).2
      · exact absurd htarget (hapart planned hmem source hs other (List.mem_append_left _ hother))
  have hsome : planned.stored? disk₁ ≠ none := by
    simp only [stored?]
    split
    · simp
    case _ source hs => exact (isFile_eq_true_iff.mp (hfile source hs)).1
  have hchanged₂ := writeAll_changed directory after disk₂
  rw [hafter] at hchanged₂
  have hkept : disk'.get? (planned.target directory) = disk₂.get? (planned.target directory) :=
    hchanged₂.get?_eq (hget ▸ hsome) fun ⟨later, hl, htarget⟩ => hlast later hl htarget.symm
  exact ⟨by rw [hkept, hget, hsame], hsame ▸ hsome⟩

/-- Of the writes to one place there is a last one. -/
lemma exists_last_write (directory : String) {plan : List PlannedWrite} {planned : PlannedWrite}
    (h : planned ∈ plan) :
    ∃ before last after, plan = before ++ last :: after ∧
      last.target directory = planned.target directory ∧
      ∀ later ∈ after, later.target directory ≠ last.target directory := by
  induction plan generalizing planned with
  | nil => simp at h
  | cons first rest ih =>
    by_cases hrest : ∃ later ∈ rest, later.target directory = planned.target directory
    · obtain ⟨later, hl, htarget⟩ := hrest
      obtain ⟨before, last, after, rfl, hlast, hafter⟩ := ih hl
      exact ⟨first :: before, last, after, rfl, hlast.trans htarget, hafter⟩
    · have hfirst : first.target directory = planned.target directory := by
        rcases List.mem_cons.mp h with rfl | hmem
        · rfl
        · exact absurd ⟨planned, hmem, rfl⟩ hrest
      refine ⟨[], first, rest, rfl, hfirst, fun later hl htarget => hrest ⟨later, hl, ?_⟩⟩
      exact htarget.trans hfirst

/-- After a run that succeeds, what was written last stands at every target. -/
theorem exists_last_of_writeAll {plan : List PlannedWrite} {planned : PlannedWrite}
    (h : writeAll directory plan disk = (disk', none)) (hapart : SourcesApart directory plan)
    (hmem : planned ∈ plan) :
    ∃ last ∈ plan, last.target directory = planned.target directory ∧
      disk'.get? (planned.target directory) = last.stored? disk ∧ last.stored? disk ≠ none := by
  obtain ⟨before, last, after, rfl, htarget, hafter⟩ := exists_last_write directory hmem
  refine ⟨last, by simp, htarget, ?_⟩
  rw [← htarget]
  exact writeAll_get?_target h hapart hafter

end Output

end SpaMigration
