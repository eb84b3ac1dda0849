import Mathlib.Data.String.Basic
import Mathlib.Order.Basic
import SpaMigration.Proofs.ManifestSections

/-!
# What an update of a manifest touches

An update touches the two sections of packages and the scripts, and in them only what it is told to. What is
found in a section afterwards is told by the changes of the package alone, and a section that is no object stays
as it is. Objects are held sorted by key, so a manifest is known from what is found under its keys, and the order
in which packages are changed makes no difference.
-/
namespace SpaMigration

open Json (Fields)

namespace Json.Fields

variable {fields other : Fields} {key : String} {value : Json}

/-- The fields of an object as it is held: sorted by key, each key once. -/
def IsSorted (fields : Fields) : Prop := fields.Pairwise fun one other => one.1 < other.1

lemma isSorted_insertSorted (h : fields.IsSorted) (hkey : ∀ field ∈ fields, field.1 ≠ key) (value : Json) :
    (fields.insertSorted key value).IsSorted := by
  induction fields with
  | nil => exact List.pairwise_singleton _ _
  | cons field rest ih =>
    obtain ⟨hfield, hrest⟩ := List.pairwise_cons.mp h
    obtain ⟨hne, hnone⟩ := List.forall_mem_cons.mp hkey
    unfold insertSorted
    by_cases hlt : key < field.1
    · rw [if_pos hlt]
      refine List.pairwise_cons.mpr ⟨List.forall_mem_cons.mpr ⟨hlt, fun next hnext => ?_⟩, h⟩
      exact hlt.trans (hfield next hnext)
    · rw [if_neg hlt]
      refine List.pairwise_cons.mpr ⟨fun next hnext => ?_, ih hrest hnone⟩
      rcases mem_insertSorted.mp hnext with rfl | hnext
      · exact lt_of_le_of_ne (not_lt.mp hlt) hne
      · exact hfield next hnext

lemma IsSorted.put (h : fields.IsSorted) (key : String) (value : Json) : (fields.put key value).IsSorted := by
  unfold Fields.put
  split_ifs with hkey
  · apply List.pairwise_map.mpr
    refine h.imp fun {one other} hlt => ?_
    have hsame : ∀ field : String × Json, (if field.1 == key then (key, value) else field).1 = field.1 := by
      intro field
      split_ifs with hfield
      · exact (beq_iff_eq.mp hfield).symm
      · rfl
    rwa [hsame, hsame]
  · exact isSorted_insertSorted h (hasKey_eq_false_iff.mp (Bool.not_eq_true _ ▸ hkey)) value

lemma IsSorted.erase (h : fields.IsSorted) (key : String) : (fields.erase key).IsSorted := h.filter _

lemma get?_cons_self (key : String) (value : Json) (fields : Fields) :
    get? ((key, value) :: fields) key = some value := by
  simp [get?]

lemma get?_cons_of_ne {field : String × Json} (h : field.1 ≠ key) (fields : Fields) :
    get? (field :: fields) key = fields.get? key := by
  simp [get?, h]

/-- What is found under its keys determines an object. -/
theorem IsSorted.ext (h : fields.IsSorted) (hother : other.IsSorted)
    (hget : ∀ key, fields.get? key = other.get? key) : fields = other := by
  induction fields generalizing other with
  | nil =>
    cases other with
    | nil => rfl
    | cons field rest =>
      have hfound := hget field.1
      rw [get?_cons_self] at hfound
      cases hfound
  | cons field rest ih =>
    cases other with
    | nil =>
      have hfound := hget field.1
      rw [get?_cons_self] at hfound
      cases hfound
    | cons field' rest' =>
      obtain ⟨hfirst, hrest⟩ := List.pairwise_cons.mp h
      obtain ⟨hfirst', hrest'⟩ := List.pairwise_cons.mp hother
      -- The smaller one of two different first keys is found on one side only.
      have hkey : field.1 = field'.1 := by
        rcases lt_trichotomy field.1 field'.1 with hlt | heq | hlt
        · have hnone : get? (field' :: rest') field.1 = none :=
            get?_eq_none_iff.mpr (List.forall_mem_cons.mpr ⟨hlt.ne', fun next hnext =>
              (hlt.trans (hfirst' next hnext)).ne'⟩)
          rw [← hget, get?_cons_self] at hnone
          cases hnone
        · exact heq
        · have hnone : get? (field :: rest) field'.1 = none :=
            get?_eq_none_iff.mpr (List.forall_mem_cons.mpr ⟨hlt.ne', fun next hnext =>
              (hlt.trans (hfirst next hnext)).ne'⟩)
          rw [hget, get?_cons_self] at hnone
          cases hnone
      have hvalue : field.2 = field'.2 := by
        have hfound := hget field.1
        rw [get?_cons_self] at hfound
        rw [hkey, get?_cons_self] at hfound
        exact Option.some.inj hfound
      have hsame : rest = rest' := by
        refine ih hrest hrest' fun key => ?_
        by_cases heq : field.1 = key
        · have hnone : get? rest key = none :=
            get?_eq_none_iff.mpr fun next hnext => heq ▸ (hfirst next hnext).ne'
          have hnone' : get? rest' key = none :=
            get?_eq_none_iff.mpr fun next hnext => heq ▸ hkey ▸ (hfirst' next hnext).ne'
          rw [hnone, hnone']
        · rw [← get?_cons_of_ne heq rest, hget, get?_cons_of_ne (hkey ▸ heq) rest']
      rw [Prod.ext hkey hvalue, hsame]

end Json.Fields

namespace Json

open Fields

lemma canonicalFields_spec (fields : List (String × Json)) {sorted : Fields} (h : sorted.IsSorted) :
    (canonicalFields fields sorted).IsSorted ∧
      ∀ field ∈ canonicalFields fields sorted, field ∈ sorted ∨ ∃ json, field.2 = canonical json := by
  induction fields generalizing sorted with
  | nil =>
    rw [canonicalFields]
    exact ⟨h, fun field hfield => .inl hfield⟩
  | cons field rest ih =>
    rw [canonicalFields]
    obtain ⟨hsorted, hmem⟩ := ih (h.put field.1 field.2.canonical)
    refine ⟨hsorted, fun found hfound => ?_⟩
    rcases hmem found hfound with hput | hcanonical
    · rcases mem_put.mp hput with rfl | ⟨hold, -⟩
      · exact .inr ⟨field.2, rfl⟩
      · exact .inl hold
    · exact .inr hcanonical

/-- Every object in a value of canonical form is sorted. -/
lemma isSorted_of_canonical {json : Json} {fields : Fields} (h : json.canonical = .object fields) :
    fields.IsSorted ∧ ∀ field ∈ fields, ∃ inner : Json, field.2 = inner.canonical := by
  cases json with
  | object raw =>
    rw [canonical, Json.object.injEq] at h
    obtain ⟨hsorted, hmem⟩ := canonicalFields_spec raw List.Pairwise.nil
    rw [h] at hsorted hmem
    exact ⟨hsorted, fun field hfield => (hmem field hfield).resolve_left List.not_mem_nil⟩
  | _ => simp [canonical] at h

end Json

namespace Manifest

open Json.Fields

variable {manifest : Fields} {changes others : List DependencyChange} {change : DependencyChange}
  {target : TargetStack} {dev : Bool} {key name : String}

/-- The fields of the object under a key; none when there is no object. -/
def objectAt (manifest : Fields) (key : String) : Fields := ((manifest.get? key).bind Json.fields?).getD []

/-- The key is the name of a section of packages. -/
def IsSectionName (key : String) : Prop := ∃ dev, key = sectionName dev

/-- The scripts that a target sets or takes away. -/
def targetScriptNames : List String := ["dev", "build", "start", "preview", "export"]

/-! What is found in an updated manifest under each key. -/

lemma get?_applyChange_of_ne (h : ¬ IsSectionName key) (manifest : Fields) (change : DependencyChange) :
    (applyChange manifest change).get? key = manifest.get? key := by
  have hne : ∀ dev, key ≠ sectionName dev := fun dev heq => h ⟨dev, heq⟩
  have herase : ∀ (manifest : Fields) (dev : Bool) (name : String),
      (erasePackage manifest dev name).get? key = manifest.get? key := fun manifest dev name => by
    unfold erasePackage
    split
    · exact get?_put_of_ne (hne dev) _ _
    · rfl
  unfold applyChange
  split
  · rw [herase, herase]
  all_goals exact get?_updateObject_of_ne (hne change.dev) _

lemma get?_foldl_applyChange_of_ne (h : ¬ IsSectionName key) (manifest : Fields)
    (changes : List DependencyChange) : (changes.foldl applyChange manifest).get? key = manifest.get? key := by
  induction changes generalizing manifest with
  | nil => rfl
  | cons change changes ih => rw [List.foldl_cons, ih, get?_applyChange_of_ne h]

lemma not_isSectionName_scripts : ¬ IsSectionName "scripts" :=
  fun ⟨dev, h⟩ => sectionName_ne_scripts dev h.symm

lemma get?_updateFields_section (manifest : Fields) (changes : List DependencyChange) (target : TargetStack)
    (dev : Bool) : (updateFields manifest changes target).get? (sectionName dev) =
      sectionAfter dev changes (manifest.get? (sectionName dev)) := by
  rw [updateFields, get?_updateObject_of_ne (sectionName_ne_scripts dev), get?_foldl_applyChange]

lemma get?_updateFields_scripts (manifest : Fields) (changes : List DependencyChange) (target : TargetStack) :
    (updateFields manifest changes target).get? "scripts" =
      changedObject (targetScripts target) (manifest.get? "scripts") := by
  rw [updateFields, get?_updateObject_self, get?_foldl_applyChange_of_ne not_isSectionName_scripts]

lemma get?_updateFields_of_ne (h : ¬ IsSectionName key) (hscripts : key ≠ "scripts") (manifest : Fields)
    (changes : List DependencyChange) (target : TargetStack) :
    (updateFields manifest changes target).get? key = manifest.get? key := by
  rw [updateFields, get?_updateObject_of_ne hscripts, get?_foldl_applyChange_of_ne h]

lemma sectionAfter_of_not_object {value : Json} (h : ∀ fields, value ≠ .object fields) (dev : Bool)
    (changes : List DependencyChange) : sectionAfter dev changes (some value) = some value := by
  cases value with
  | object fields => exact absurd rfl (h fields)
  | _ => rfl

/-- What is no object stays as it is, wherever it stands. -/
lemma get?_updateFields_of_not_object {value : Json} (h : manifest.get? key = some value)
    (hvalue : ∀ fields, value ≠ .object fields) (changes : List DependencyChange) (target : TargetStack) :
    (updateFields manifest changes target).get? key = some value := by
  by_cases hsection : IsSectionName key
  · obtain ⟨dev, rfl⟩ := hsection
    rw [get?_updateFields_section, h, sectionAfter_of_not_object hvalue]
  · by_cases hscripts : key = "scripts"
    · subst hscripts
      rw [get?_updateFields_scripts, h]
      cases value with
      | object fields => exact absurd rfl (hvalue fields)
      | _ => rfl
    · rw [get?_updateFields_of_ne hsection hscripts, h]

lemma packagesOf_updateFields (h : IsObjectOrAbsent manifest (sectionName dev))
    (changes : List DependencyChange) (target : TargetStack) :
    packagesOf (updateFields manifest changes target) dev =
      changes.foldl (changeSection dev) (packagesOf manifest dev) := by
  rw [updateFields, packagesOf_updateScripts, packagesOf_foldl_applyChange h]

lemma packages?_updateFields {packages : Fields} (h : packages? manifest dev = some packages)
    (changes : List DependencyChange) (target : TargetStack) :
    packages? (updateFields manifest changes target) dev = some (changes.foldl (changeSection dev) packages) := by
  obtain ⟨value, hfound, hvalue⟩ := Option.bind_eq_some_iff.mp h
  rw [packages?, get?_updateFields_section, hfound]
  cases value with
  | object fields =>
    cases hvalue
    rfl
  | _ => cases hvalue

lemma packagesOf_eq_nil (h : ¬ IsObjectOrAbsent manifest (sectionName dev)) (changes : List DependencyChange)
    (target : TargetStack) :
    packagesOf manifest dev = [] ∧ packagesOf (updateFields manifest changes target) dev = [] := by
  simp only [IsObjectOrAbsent, not_forall, not_exists] at h
  obtain ⟨value, hfound, hvalue⟩ := h
  have hnone : ∀ {fields : Fields}, fields.get? (sectionName dev) = some value → packagesOf fields dev = [] := by
    intro fields hfields
    cases value with
    | object packages => exact absurd rfl (hvalue packages)
    | _ => simp [packagesOf, packages?, hfields, Json.fields?]
  exact ⟨hnone hfound, hnone (get?_updateFields_of_not_object hfound hvalue changes target)⟩

/-- What is found under the name of a package afterwards is told by its own changes; a section that is no object
has no packages before or after. -/
lemma get?_packagesOf_updateFields (manifest : Fields) (changes : List DependencyChange) (target : TargetStack)
    (dev : Bool) (name : String) :
    IsObjectOrAbsent manifest (sectionName dev) ∧ (packagesOf (updateFields manifest changes target) dev).get? name =
        ((changes.filter (·.name == name)).foldl (changeSection dev) (packagesOf manifest dev)).get? name ∨
      packagesOf manifest dev = [] ∧ packagesOf (updateFields manifest changes target) dev = [] := by
  by_cases h : IsObjectOrAbsent manifest (sectionName dev)
  · rw [packagesOf_updateFields h]
    exact .inl ⟨h, get?_foldl_changeSection name dev changes rfl⟩
  · exact .inr (packagesOf_eq_nil h changes target)

/-- A package that no change names is found as before. -/
lemma get?_packagesOf_of_not_named (h : ∀ change ∈ changes, change.name ≠ name) (manifest : Fields)
    (target : TargetStack) (dev : Bool) :
    (packagesOf (updateFields manifest changes target) dev).get? name = (packagesOf manifest dev).get? name := by
  have hnone : changes.filter (·.name == name) = [] := by simpa using h
  rcases get?_packagesOf_updateFields manifest changes target dev name with ⟨-, hget⟩ | ⟨hbefore, hafter⟩
  · rw [hget, hnone, List.foldl_nil]
  · rw [hbefore, hafter]

/-- A package with one change that removes it is gone. -/
lemma get?_packagesOf_of_removed (h : changes.filter (·.name == change.name) = [change])
    (haction : change.action = .remove) (manifest : Fields) (target : TargetStack) (dev : Bool) :
    (packagesOf (updateFields manifest changes target) dev).get? change.name = none := by
  rcases get?_packagesOf_updateFields manifest changes target dev change.name with ⟨-, hget⟩ | ⟨-, hafter⟩
  · rw [hget, h, List.foldl_cons, List.foldl_nil, changeSection_remove haction, get?_erase_self]
  · rw [hafter]
    rfl

/-- A package with one change that sets its version is found with that version in the section it is meant for. -/
lemma get?_packagesOf_of_set {version : String} (h : changes.filter (·.name == change.name) = [change])
    (haction : change.action ≠ .remove) (hversion : change.toVersion = some version)
    (hsection : IsObjectOrAbsent manifest (sectionName change.dev)) (target : TargetStack) :
    (packagesOf (updateFields manifest changes target) change.dev).get? change.name = some (.string version) := by
  rw [packagesOf_updateFields hsection, get?_foldl_changeSection change.name change.dev changes rfl, h,
    List.foldl_cons, List.foldl_nil, changeSection_of_ne_remove haction, if_pos rfl, setVersion, hversion]
  exact get?_put_self _ _ _

/-- In a section it is not meant for, a package with one change that does not remove it is found as before. -/
lemma get?_packagesOf_of_other_section (h : changes.filter (·.name == change.name) = [change])
    (haction : change.action ≠ .remove) (hdev : change.dev ≠ dev) (manifest : Fields) (target : TargetStack) :
    (packagesOf (updateFields manifest changes target) dev).get? change.name =
      (packagesOf manifest dev).get? change.name := by
  rcases get?_packagesOf_updateFields manifest changes target dev change.name with ⟨-, hget⟩ | ⟨hbefore, hafter⟩
  · rw [hget, h, List.foldl_cons, List.foldl_nil, changeSection_of_ne_remove haction, if_neg hdev]
  · rw [hbefore, hafter]

lemma get?_targetScripts_of_not_mem (h : name ∉ targetScriptNames) (target : TargetStack) (scripts : Fields) :
    (targetScripts target scripts).get? name = scripts.get? name := by
  simp only [targetScriptNames, List.mem_cons, List.not_mem_nil, or_false, not_or] at h
  obtain ⟨hdev, hbuild, hstart, hpreview, hexport⟩ := h
  cases target <;>
    simp only [targetScripts, get?_erase_of_ne hexport, get?_erase_of_ne hstart, get?_put_of_ne hpreview,
      get?_put_of_ne hstart, get?_put_of_ne hbuild, get?_put_of_ne hdev]

/-- A script that the target does not set or take away is found as before. -/
lemma get?_scripts_of_not_mem (h : name ∉ targetScriptNames) (manifest : Fields) (changes : List DependencyChange)
    (target : TargetStack) :
    (objectAt (updateFields manifest changes target) "scripts").get? name =
      (objectAt manifest "scripts").get? name := by
  unfold objectAt
  rw [get?_updateFields_scripts]
  cases manifest.get? "scripts" with
  | none => exact get?_targetScripts_of_not_mem h target []
  | some value =>
    cases value with
    | object scripts => exact get?_targetScripts_of_not_mem h target scripts
    | _ => rfl

/-! An updated manifest is held sorted, as the manifest itself. -/

/-- A manifest as it is held: sorted, and so is each object in it. -/
def IsHeldSorted (manifest : Fields) : Prop :=
  manifest.IsSorted ∧ ∀ key fields, manifest.get? key = some (.object fields) → IsSorted fields

lemma isHeldSorted_of_canonical {json : Json} (h : json.canonical = .object manifest) : IsHeldSorted manifest := by
  obtain ⟨hsorted, hinner⟩ := Json.isSorted_of_canonical h
  refine ⟨hsorted, fun key fields hfound => ?_⟩
  obtain ⟨field, hfield, hvalue⟩ := Option.map_eq_some_iff.mp hfound
  obtain ⟨inner, hcanonical⟩ := hinner field (List.mem_of_find?_eq_some hfield)
  exact (Json.isSorted_of_canonical (hcanonical ▸ hvalue)).1

lemma isSorted_updateObject (h : manifest.IsSorted) (key : String) (f : Fields → Fields) :
    (updateObject manifest key f).IsSorted := by
  unfold updateObject
  split
  · exact h.put _ _
  · exact h
  · exact h.put _ _

lemma isSorted_erasePackage (h : manifest.IsSorted) (dev : Bool) (name : String) :
    (erasePackage manifest dev name).IsSorted := by
  unfold erasePackage
  split
  · exact h.put _ _
  · exact h

lemma isSorted_applyChange (h : manifest.IsSorted) (change : DependencyChange) :
    (applyChange manifest change).IsSorted := by
  unfold applyChange
  split
  · exact isSorted_erasePackage (isSorted_erasePackage h _ _) _ _
  all_goals exact isSorted_updateObject h _ _

lemma isSorted_updateFields (h : manifest.IsSorted) (changes : List DependencyChange) (target : TargetStack) :
    (updateFields manifest changes target).IsSorted := by
  refine isSorted_updateObject ?_ _ _
  induction changes generalizing manifest with
  | nil => exact h
  | cons change rest ih => exact ih (isSorted_applyChange h change)

lemma isSorted_foldl_changeSection {packages : Fields} (h : packages.IsSorted) (dev : Bool)
    (changes : List DependencyChange) : (changes.foldl (changeSection dev) packages).IsSorted := by
  induction changes generalizing packages with
  | nil => exact h
  | cons change rest ih =>
    refine ih ?_
    unfold changeSection
    split
    · exact h.erase _
    all_goals
      split_ifs
      · split
        · exact h.put _ _
        · exact h
      · exact h

/-! The order of changes of different packages makes no difference. -/

/-- Of changes of different packages, those of one name are the same in any order. -/
lemma filter_name_eq_of_perm (h : changes.Perm others) (hnames : (changes.map (·.name)).Nodup) (name : String) :
    changes.filter (·.name == name) = others.filter (·.name == name) := by
  have hperm := h.filter (·.name == name)
  have hsame : (changes.filter (·.name == name)).map (·.name) =
      List.replicate (changes.filter (·.name == name)).length name := by
    refine List.map_eq_replicate_iff.mpr fun change hchange => ?_
    exact beq_iff_eq.mp (List.mem_filter.mp hchange).2
  have hlength : (changes.filter (·.name == name)).length ≤ 1 := by
    rw [← List.nodup_replicate (a := name), ← hsame]
    exact hnames.sublist (List.filter_sublist.map _)
  rcases Nat.le_one_iff_eq_zero_or_eq_one.mp hlength with hzero | hone
  · rw [List.length_eq_zero_iff.mp hzero] at hperm ⊢
    exact hperm.nil_eq
  · obtain ⟨change, hchange⟩ := List.length_eq_one_iff.mp hone
    rw [hchange] at hperm ⊢
    exact (List.perm_singleton.mp hperm.symm).symm

lemma foldl_changeSection_eq_of_perm (h : changes.Perm others) (hnames : (changes.map (·.name)).Nodup)
    {packages : Fields} (hpackages : packages.IsSorted) (dev : Bool) :
    changes.foldl (changeSection dev) packages = others.foldl (changeSection dev) packages := by
  refine (isSorted_foldl_changeSection hpackages dev changes).ext
    (isSorted_foldl_changeSection hpackages dev others) fun name => ?_
  rw [get?_foldl_changeSection name dev changes rfl, get?_foldl_changeSection name dev others rfl,
    filter_name_eq_of_perm h hnames]

lemma sectionAfter_eq_of_perm (h : changes.Perm others) (hnames : (changes.map (·.name)).Nodup)
    {value : Option Json} (hvalue : ∀ packages, value = some (.object packages) → IsSorted packages) (dev : Bool) :
    sectionAfter dev changes value = sectionAfter dev others value := by
  cases value with
  | none =>
    have hnil : IsSorted [] := List.Pairwise.nil
    simp only [sectionAfter, foldl_changeSection_eq_of_perm h hnames hnil, h.any_eq]
  | some value =>
    cases value with
    | object packages => simp only [sectionAfter, foldl_changeSection_eq_of_perm h hnames (hvalue packages rfl)]
    | _ => rfl

lemma updateFields_eq_of_perm (hheld : IsHeldSorted manifest) (h : changes.Perm others)
    (hnames : (changes.map (·.name)).Nodup) (target : TargetStack) :
    updateFields manifest changes target = updateFields manifest others target := by
  refine (isSorted_updateFields hheld.1 changes target).ext (isSorted_updateFields hheld.1 others target) fun key => ?_
  by_cases hsection : IsSectionName key
  · obtain ⟨dev, rfl⟩ := hsection
    rw [get?_updateFields_section, get?_updateFields_section]
    exact sectionAfter_eq_of_perm h hnames (fun packages hfound => hheld.2 _ packages hfound) dev
  · by_cases hscripts : key = "scripts"
    · subst hscripts
      rw [get?_updateFields_scripts, get?_updateFields_scripts]
    · rw [get?_updateFields_of_ne hsection hscripts, get?_updateFields_of_ne hsection hscripts]

/-- An update touches what it is told to and nothing else. Every key but the two sections of packages and the
scripts keeps its value, and so does what is no object under one of these. A section stays a section, with every
package that no change names as it was and no other one. A package that one change names is gone after a removal;
after any other change with a version, it has that version in the section the change is meant for, if there is
one or can be, and is as it was in the other one. Scripts other than those of the targets are as they were.
Changes of different packages lead to the same manifest in any order. -/
theorem update_touches_only_told (manifest : Fields) (changes : List DependencyChange) (target : TargetStack) :
    ∃ after : Fields, update (.object manifest) changes target = .object after ∧
      (∀ key, ¬ IsSectionName key → key ≠ "scripts" → after.get? key = manifest.get? key) ∧
      (∀ key value, manifest.get? key = some value → (∀ fields, value ≠ .object fields) →
        after.get? key = some value) ∧
      (∀ dev, (packages? manifest dev).isSome → (packages? after dev).isSome) ∧
      (∀ dev name, (∀ change ∈ changes, change.name ≠ name) →
        (packagesOf after dev).get? name = (packagesOf manifest dev).get? name) ∧
      (∀ change, changes.filter (·.name == change.name) = [change] →
        (change.action = .remove → ∀ dev, (packagesOf after dev).get? change.name = none) ∧
        (∀ version, change.action ≠ .remove → change.toVersion = some version →
          IsObjectOrAbsent manifest (sectionName change.dev) →
            (packagesOf after change.dev).get? change.name = some (.string version) ∧
            (packagesOf after !change.dev).get? change.name =
              (packagesOf manifest !change.dev).get? change.name)) ∧
      (∀ name ∉ targetScriptNames,
        (objectAt after "scripts").get? name = (objectAt manifest "scripts").get? name) ∧
      (∀ json others, Json.canonical json = .object manifest → changes.Perm others →
        (changes.map (·.name)).Nodup → update (.object manifest) others target = .object after) := by
  refine ⟨updateFields manifest changes target, rfl, ?_, ?_, ?_, ?_, fun change hone => ⟨?_, ?_⟩, ?_, ?_⟩
  · intro key hsection hscripts
    exact get?_updateFields_of_ne hsection hscripts manifest changes target
  · intro key value hfound hvalue
    exact get?_updateFields_of_not_object hfound hvalue changes target
  · intro dev hsection
    obtain ⟨packages, hpackages⟩ := Option.isSome_iff_exists.mp hsection
    exact Option.isSome_iff_exists.mpr ⟨_, packages?_updateFields hpackages changes target⟩
  · intro dev name hnone
    exact get?_packagesOf_of_not_named hnone manifest target dev
  · intro haction dev
    exact get?_packagesOf_of_removed hone haction manifest target dev
  · intro version haction hversion hsection
    refine ⟨get?_packagesOf_of_set hone haction hversion hsection target, ?_⟩
    exact get?_packagesOf_of_other_section hone haction (Bool.not_ne_self change.dev).symm manifest target
  · intro name hname
    exact get?_scripts_of_not_mem hname manifest changes target
  · intro json others hjson hperm hnames
    rw [update, updateFields_eq_of_perm (isHeldSorted_of_canonical hjson) hperm hnames]

/-- A manifest with one section of packages that is no object. -/
def halfObjectManifest : Fields :=
  [("dependencies", .object [("lodash", .null), ("next", .string "13"), ("react", .string "^17.0.2")]),
    ("devDependencies", .string "none"), ("name", .string "app"),
    ("scripts", .object [("export", .string "next export"), ("lint", .string "eslint")])]

/-- A removal and an update. -/
def twoChanges : List DependencyChange :=
  [{ name := "next", action := .remove, dev := false },
    { name := "react", action := .update, toVersion := some "^18.2.0", dev := false }]

theorem update_touches_only_told_halfObjectManifest :
    ∃ after : Fields, update (.object halfObjectManifest) twoChanges .vite = .object after ∧
      after.get? "name" = some (.string "app") ∧ after.get? "devDependencies" = some (.string "none") ∧
      (packages? after false).isSome ∧ (packagesOf after false).get? "lodash" = some .null ∧
      (packagesOf after false).get? "next" = none ∧
      (packagesOf after false).get? "react" = some (.string "^18.2.0") ∧
      (objectAt after "scripts").get? "lint" = some (.string "eslint") ∧
      update (.object halfObjectManifest) twoChanges.reverse .vite = .object after := by
  obtain ⟨after, hafter, hkeys, hvalues, hsections, hothers, hnamed, hscripts, hperm⟩ :=
    update_touches_only_told halfObjectManifest twoChanges .vite
  have hsection : IsObjectOrAbsent halfObjectManifest (sectionName false) := by
    intro value hfound
    exact ⟨_, (Option.some.inj hfound).symm⟩
  refine ⟨after, hafter, ?_, ?_, hsections false rfl, ?_, ?_, ?_, ?_, ?_⟩
  · refine hkeys "name" ?_ (by decide)
    rintro ⟨dev, hdev⟩
    revert dev
    decide
  · exact hvalues "devDependencies" _ rfl fun fields => Json.noConfusion
  · exact hothers false "lodash" (by decide)
  · exact (hnamed twoChanges[0] (by decide)).1 rfl false
  · exact ((hnamed twoChanges[1] (by decide)).2 "^18.2.0" (by decide) rfl hsection).1
  · exact hscripts "lint" (by decide)
  · refine hperm (.object halfObjectManifest) _ ?_ (List.reverse_perm twoChanges).symm (by decide)
    rfl

end Manifest

end SpaMigration
