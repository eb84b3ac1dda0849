import Mathlib.Data.List.Basic
import SpaMigration.Dependency.Manifest

/-!
# Sections of a manifest

What is found under a key after a field is put or erased, and what a change of a dependency does to the
packages of each section. Where both sections of packages are objects or absent, a list of changes acts on
each of them alone.
-/
namespace SpaMigration

open Json (Fields)

namespace Json.Fields

variable {fields : Fields} {key other : String} {value : Json}

lemma get?_eq_none_iff : fields.get? key = none ↔ ∀ field ∈ fields, field.1 ≠ key := by
  simp [get?]

lemma hasKey_eq_false_iff : fields.hasKey key = false ↔ ∀ field ∈ fields, field.1 ≠ key := by
  simp [hasKey]

lemma get?_insertSorted_self (h : ∀ field ∈ fields, field.1 ≠ key) (value : Json) :
    (fields.insertSorted key value).get? key = some value := by
  induction fields with
  | nil => simp [insertSorted, get?]
  | cons field rest ih =>
    obtain ⟨hfield, hrest⟩ := List.forall_mem_cons.mp h
    simp only [insertSorted]
    split_ifs
    · simp [get?]
    · simpa [get?, hfield] using ih hrest

lemma get?_insertSorted_of_ne (h : other ≠ key) (fields : Fields) (value : Json) :
    (fields.insertSorted key value).get? other = fields.get? other := by
  induction fields with
  | nil => simp [insertSorted, get?, h.symm]
  | cons field rest ih =>
    simp only [insertSorted]
    split_ifs
    · simp [get?, h.symm]
    · by_cases hfield : field.1 = other
      · simp [get?, hfield]
      · simpa [get?, hfield] using ih

@[simp] lemma get?_put_self (fields : Fields) (key : String) (value : Json) :
    (fields.put key value).get? key = some value := by
  unfold put
  split_ifs with hkey
  · induction fields with
    | nil => simp [hasKey] at hkey
    | cons field rest ih =>
      by_cases hfield : field.1 = key
      · simp [get?, hfield]
      · simp only [hasKey, List.any_cons, beq_eq_false_iff_ne.mpr hfield, Bool.false_or] at hkey
        simpa [get?, hfield] using ih hkey
  · exact get?_insertSorted_self (hasKey_eq_false_iff.mp (Bool.not_eq_true _ ▸ hkey)) value

lemma get?_put_of_ne (h : other ≠ key) (fields : Fields) (value : Json) :
    (fields.put key value).get? other = fields.get? other := by
  unfold put
  split_ifs with hkey
  · clear hkey
    induction fields with
    | nil => rfl
    | cons field rest ih =>
      by_cases hfield : field.1 = key
      · have hother : field.1 ≠ other := fun hsame => h (hsame.symm.trans hfield)
        simpa [get?, hfield, h.symm, hother] using ih
      · by_cases hother : field.1 = other
        · simp [get?, hother, h]
        · simpa [get?, hfield, hother] using ih
  · exact get?_insertSorted_of_ne h fields value

@[simp] lemma get?_erase_self (fields : Fields) (key : String) : (fields.erase key).get? key = none := by
  simp [get?_eq_none_iff, erase]

lemma get?_erase_of_ne (h : other ≠ key) (fields : Fields) :
    (fields.erase key).get? other = fields.get? other := by
  rw [get?, get?, erase, List.find?_filter]
  congr 2
  funext field
  by_cases hfield : field.1 = other <;> simp [hfield, h]

/-- The key occurs, and every field of the key has this value. -/
def Holds (fields : Fields) (key : String) (value : Json) : Prop :=
  fields.hasKey key = true ∧ ∀ field ∈ fields, field.1 = key → field.2 = value

lemma mem_insertSorted {field : String × Json} :
    field ∈ fields.insertSorted key value ↔ field = (key, value) ∨ field ∈ fields := by
  induction fields with
  | nil => simp [insertSorted]
  | cons first rest ih =>
    simp only [insertSorted]
    split_ifs
    · simp
    · simp [ih, or_left_comm]

lemma mem_put {field : String × Json} : field ∈ fields.put key value ↔
    field = (key, value) ∨ field ∈ fields ∧ field.1 ≠ key := by
  unfold put
  split_ifs with hkey
  · obtain ⟨found, hfound, hsame⟩ := List.any_eq_true.mp hkey
    simp only [List.mem_map, beq_iff_eq] at hsame ⊢
    constructor
    · rintro ⟨old, hold, rfl⟩
      split_ifs with hold'
      · exact .inl rfl
      · exact .inr ⟨hold, hold'⟩
    · rintro (rfl | ⟨hmem, hne⟩)
      · exact ⟨found, hfound, by simp [hsame]⟩
      · exact ⟨field, hmem, by simp [hne]⟩
  · have hnone := hasKey_eq_false_iff.mp (Bool.not_eq_true _ ▸ hkey)
    rw [mem_insertSorted, and_iff_left_of_imp (hnone field)]

lemma holds_iff : fields.Holds key value ↔
    (key, value) ∈ fields ∧ ∀ field ∈ fields, field.1 = key → field = (key, value) := by
  simp only [Holds, hasKey, List.any_eq_true, beq_iff_eq]
  constructor
  · rintro ⟨⟨found, hfound, rfl⟩, hall⟩
    have hvalue := hall found hfound rfl
    exact ⟨hvalue ▸ hfound, fun field hfield hkey => Prod.ext hkey (hall field hfield hkey)⟩
  · rintro ⟨hmem, hall⟩
    exact ⟨⟨_, hmem, rfl⟩, fun field hfield hkey => congrArg Prod.snd (hall field hfield hkey)⟩

lemma holds_put_self (fields : Fields) (key : String) (value : Json) :
    (fields.put key value).Holds key value := by
  refine holds_iff.mpr ⟨mem_put.mpr (.inl rfl), fun field hfield hkey => ?_⟩
  exact (mem_put.mp hfield).resolve_right fun hother => hother.2 hkey

lemma Holds.put_of_ne (h : fields.Holds key value) (hne : key ≠ other) (value' : Json) :
    (fields.put other value').Holds key value := by
  obtain ⟨hmem, hall⟩ := holds_iff.mp h
  simp only [holds_iff, mem_put]
  refine ⟨.inr ⟨hmem, hne⟩, fun field hfield hkey => ?_⟩
  rcases hfield with rfl | ⟨hfield, -⟩
  · exact absurd hkey.symm hne
  · exact hall field hfield hkey

lemma Holds.erase_of_ne (h : fields.Holds key value) (hne : key ≠ other) :
    (fields.erase other).Holds key value := by
  obtain ⟨hmem, hall⟩ := holds_iff.mp h
  simp only [holds_iff, erase, List.mem_filter, bne_iff_ne, and_imp]
  exact ⟨⟨hmem, hne⟩, fun field hfield _ hkey => hall field hfield hkey⟩

/-- Putting the value that is there already changes nothing. -/
lemma Holds.put_eq (h : fields.Holds key value) : fields.put key value = fields := by
  rw [put, if_pos h.1, List.map_congr_left (g := id), List.map_id]
  intro field hfield
  split_ifs with hkey
  · exact ((holds_iff.mp h).2 field hfield (beq_iff_eq.mp hkey)).symm
  · rfl

lemma erase_eq (h : ∀ field ∈ fields, field.1 ≠ key) : fields.erase key = fields := by
  simpa [erase] using h

end Json.Fields

namespace Manifest

open Json.Fields

variable {manifest : Fields} {change : DependencyChange}

/-- The sections of packages are objects, as far as there are any. -/
def HasPlainSections (manifest : Fields) : Prop :=
  ∀ dev value, manifest.get? (sectionName dev) = some value → ∃ packages, value = .object packages

/-- There is an object under the key, or nothing. -/
def IsObjectOrAbsent (manifest : Fields) (key : String) : Prop :=
  ∀ value, manifest.get? key = some value → ∃ fields, value = .object fields

/-- The packages of a section; none when there is no such section. -/
def packagesOf (manifest : Fields) (dev : Bool) : Fields := (packages? manifest dev).getD []

lemma sectionName_inj {dev dev' : Bool} : sectionName dev = sectionName dev' ↔ dev = dev' := by
  revert dev dev'
  decide

lemma sectionName_ne_scripts (dev : Bool) : sectionName dev ≠ "scripts" := by
  revert dev
  decide

/-- What stands under a key whose object was changed, by what stood there before. -/
def changedObject (f : Fields → Fields) : Option Json → Option Json
  | some (.object fields) => some (.object (f fields))
  | some other => some other
  | none => some (.object (f []))

lemma get?_updateObject_self (manifest : Fields) (key : String) (f : Fields → Fields) :
    (updateObject manifest key f).get? key = changedObject f (manifest.get? key) := by
  unfold updateObject
  cases hfound : manifest.get? key with
  | none => exact get?_put_self _ _ _
  | some value =>
    cases value with
    | object fields => exact get?_put_self _ _ _
    | _ => exact hfound

lemma get?_updateObject_of_ne {key other : String} (h : other ≠ key) (f : Fields → Fields) :
    (updateObject manifest key f).get? other = manifest.get? other := by
  unfold updateObject
  split
  · exact get?_put_of_ne h _ _
  · rfl
  · exact get?_put_of_ne h _ _

/-- An update that changes nothing the second time does so under its key too. -/
lemma updateObject_updateObject (manifest : Fields) (key : String) {f : Fields → Fields}
    (hf : ∀ fields, f (f fields) = f fields) :
    updateObject (updateObject manifest key f) key f = updateObject manifest key f := by
  have hput : ∀ fields, updateObject (manifest.put key (.object (f fields))) key f =
      manifest.put key (.object (f fields)) := by
    intro fields
    simp only [updateObject, get?_put_self, hf]
    exact (holds_put_self manifest key _).put_eq
  cases hfound : manifest.get? key with
  | none => simpa [updateObject, hfound] using hput []
  | some value =>
    cases value with
    | object fields => simpa [updateObject, hfound] using hput fields
    | _ => simp [updateObject, hfound]

lemma packagesOf_updateScripts (manifest : Fields) (dev : Bool) (f : Fields → Fields) :
    packagesOf (updateObject manifest "scripts" f) dev = packagesOf manifest dev := by
  rw [packagesOf, packages?, get?_updateObject_of_ne (sectionName_ne_scripts dev), packagesOf, packages?]

/-- What a change does to the packages of a section. -/
def changeSection (dev : Bool) (packages : Fields) (change : DependencyChange) : Fields :=
  match change.action with
  | .remove => packages.erase change.name
  | .add | .update =>
    if change.dev = dev then
      match change.toVersion with
      | some version => packages.put change.name (.string version)
      | none => packages
    else packages

lemma changeSection_remove (haction : change.action = .remove) (dev : Bool) (packages : Fields) :
    changeSection dev packages change = packages.erase change.name := by
  simp only [changeSection, haction]

/-- The change puts a package into a section, which is made if there is none. -/
def addsTo (dev : Bool) (change : DependencyChange) : Bool := change.action != .remove && change.dev == dev

/-- What stands under the name of a section after some changes, by what stood there before. -/
def sectionAfter (dev : Bool) (changes : List DependencyChange) : Option Json → Option Json
  | some (.object packages) => some (.object (changes.foldl (changeSection dev) packages))
  | some other => some other
  | none => if changes.any (addsTo dev) then some (.object (changes.foldl (changeSection dev) [])) else none

/-- What a change that does not remove does to the section it is meant for. -/
def setVersion (change : DependencyChange) (packages : Fields) : Fields :=
  match change.toVersion with
  | some version => packages.put change.name (.string version)
  | none => packages

lemma applyChange_of_ne_remove (h : change.action ≠ .remove) (manifest : Fields) :
    applyChange manifest change = updateObject manifest (sectionName change.dev) (setVersion change) := by
  cases haction : change.action with
  | remove => exact absurd haction h
  | _ => simp only [applyChange, haction]; rfl

lemma changeSection_of_ne_remove (h : change.action ≠ .remove) (dev : Bool) (packages : Fields) :
    changeSection dev packages change = if change.dev = dev then setVersion change packages else packages := by
  cases haction : change.action with
  | remove => exact absurd haction h
  | _ => simp only [changeSection, haction]; rfl

lemma addsTo_of_ne_remove (h : change.action ≠ .remove) (dev : Bool) :
    addsTo dev change = (change.dev == dev) := by
  simp [addsTo, h]

lemma changeSection_nil {dev : Bool} (h : addsTo dev change = false) : changeSection dev [] change = [] := by
  by_cases haction : change.action = .remove
  · rw [changeSection_remove haction]
    rfl
  · rw [addsTo_of_ne_remove haction, beq_eq_false_iff_ne] at h
    rw [changeSection_of_ne_remove haction, if_neg h]

lemma foldl_changeSection_nil {dev : Bool} {changes : List DependencyChange}
    (h : changes.any (addsTo dev) = false) : changes.foldl (changeSection dev) [] = [] := by
  induction changes with
  | nil => rfl
  | cons change rest ih =>
    rw [List.any_cons, Bool.or_eq_false_iff] at h
    rw [List.foldl_cons, changeSection_nil h.1, ih h.2]

lemma sectionAfter_cons (dev : Bool) (change : DependencyChange) (changes : List DependencyChange)
    (value : Option Json) :
    sectionAfter dev (change :: changes) value = sectionAfter dev changes (sectionAfter dev [change] value) := by
  cases value with
  | some value => cases value <;> simp [sectionAfter]
  | none =>
    by_cases hadds : addsTo dev change = true
    · simp [sectionAfter, hadds]
    · rw [Bool.not_eq_true] at hadds
      simp [sectionAfter, hadds, changeSection_nil hadds]

lemma get?_erasePackage (manifest : Fields) (dev dev' : Bool) (name : String) :
    (erasePackage manifest dev name).get? (sectionName dev') =
      if dev = dev' then (manifest.get? (sectionName dev')).map fun
        | .object packages => .object (Json.Fields.erase packages name)
        | other => other
      else manifest.get? (sectionName dev') := by
  unfold erasePackage packages?
  by_cases hdev : dev = dev'
  · subst hdev
    cases hfound : manifest.get? (sectionName dev) with
    | none => simp [hfound]
    | some value => cases value <;> simp [Json.fields?, hfound]
  · rw [if_neg hdev]
    split
    · exact get?_put_of_ne (fun h => hdev (sectionName_inj.mp h).symm) _ _
    · rfl

/-- A change does to each section what it does to a list with that change alone. -/
lemma get?_applyChange (manifest : Fields) (change : DependencyChange) (dev : Bool) :
    (applyChange manifest change).get? (sectionName dev) =
      sectionAfter dev [change] (manifest.get? (sectionName dev)) := by
  by_cases haction : change.action = .remove
  · have hadds : addsTo dev change = false := by simp [addsTo, haction]
    simp only [applyChange, haction, get?_erasePackage]
    cases manifest.get? (sectionName dev) with
    | none => cases dev <;> simp [sectionAfter, hadds]
    | some value => cases value <;> cases dev <;> simp [sectionAfter, changeSection_remove haction]
  · rw [applyChange_of_ne_remove haction]
    by_cases hdev : change.dev = dev
    · subst hdev
      rw [get?_updateObject_self]
      cases manifest.get? (sectionName change.dev) with
      | none => simp [changedObject, sectionAfter, addsTo_of_ne_remove haction, changeSection_of_ne_remove haction]
      | some value => cases value <;> simp [changedObject, sectionAfter, changeSection_of_ne_remove haction]
    · rw [get?_updateObject_of_ne fun h => hdev (sectionName_inj.mp h).symm]
      cases manifest.get? (sectionName dev) with
      | none => simp [sectionAfter, addsTo_of_ne_remove haction, hdev]
      | some value => cases value <;> simp [sectionAfter, changeSection_of_ne_remove haction, hdev]

theorem get?_foldl_applyChange (manifest : Fields) (changes : List DependencyChange) (dev : Bool) :
    (changes.foldl applyChange manifest).get? (sectionName dev) =
      sectionAfter dev changes (manifest.get? (sectionName dev)) := by
  induction changes generalizing manifest with
  | nil =>
    cases hfound : manifest.get? (sectionName dev) with
    | none => simp [sectionAfter, hfound]
    | some value => cases value <;> simp [sectionAfter, hfound]
  | cons change changes ih => rw [List.foldl_cons, ih, get?_applyChange, ← sectionAfter_cons]

/-- Changes act on each section alone. -/
theorem packagesOf_foldl_applyChange {dev : Bool} (h : IsObjectOrAbsent manifest (sectionName dev))
    (changes : List DependencyChange) : packagesOf (changes.foldl applyChange manifest) dev =
      changes.foldl (changeSection dev) (packagesOf manifest dev) := by
  simp only [packagesOf, packages?, get?_foldl_applyChange]
  cases hfound : manifest.get? (sectionName dev) with
  | none =>
    cases hadds : changes.any (addsTo dev) with
    | true => simp [sectionAfter, hadds, Json.fields?]
    | false => simp [sectionAfter, hadds, foldl_changeSection_nil hadds]
  | some value =>
    obtain ⟨packages, rfl⟩ := h value hfound
    rfl

lemma get?_changeSection_of_ne {name : String} (h : name ≠ change.name) (dev : Bool) (packages : Fields) :
    (changeSection dev packages change).get? name = packages.get? name := by
  unfold changeSection
  split
  · exact get?_erase_of_ne h packages
  all_goals
    split_ifs
    · split
      · exact get?_put_of_ne h packages _
      · rfl
    · rfl

/-- What is found under a name depends on the changes of that name only. -/
theorem get?_foldl_changeSection (name : String) (dev : Bool) (changes : List DependencyChange)
    {packages packages' : Fields} (hsame : packages.get? name = packages'.get? name) :
    (changes.foldl (changeSection dev) packages).get? name =
      ((changes.filter (·.name == name)).foldl (changeSection dev) packages').get? name := by
  induction changes generalizing packages packages' with
  | nil => exact hsame
  | cons change rest ih =>
    by_cases hname : change.name = name
    · rw [List.filter_cons_of_pos (by simpa using hname), List.foldl_cons, List.foldl_cons]
      refine ih ?_
      -- A change of the name itself decides what is found, or leaves it.
      subst hname
      unfold changeSection
      split
      · simp
      all_goals
        split_ifs
        · split
          · simp
          · exact hsame
        · exact hsame
    · rw [List.filter_cons_of_neg (by simpa using hname), List.foldl_cons]
      refine ih ?_
      rw [get?_changeSection_of_ne (Ne.symm hname), hsame]

end Manifest

end SpaMigration
