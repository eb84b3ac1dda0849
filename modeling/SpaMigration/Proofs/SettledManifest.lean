import SpaMigration.Dependency.Survey
import SpaMigration.Proofs.ManifestSections

/-!
# Manifests that are settled

A manifest to which the changes of its survey were applied asks for no more changes: the framework's packages
are gone, the view library is new enough and what the target needs is there. The issues stay as they were,
since no change touches a package that has one.
-/
namespace SpaMigration

open Json (Fields)
open Json.Fields Manifest

namespace DependencySurvey

variable {manifest : Fields} {name : String} {change : DependencyChange}

/-- The packages of the view library. -/
def viewPackages : List String := ["react", "react-dom"]

/-- The names of what the target needs. -/
def targetNames (target : TargetStack) : List String := (targetPackages target).map (·.1)

/-- A package is found in at most one of the three lists that changes are made from. -/
lemma names_apart (target : TargetStack) : (viewPackages ++ targetNames target).Nodup ∧
    ∀ name ∈ viewPackages ++ targetNames target, isFrameworkPackage name = false ∧ issue? name = none := by
  cases target <;> decide

/-- A package is looked up in the one section and then in the other. -/
lemma installed?_eq (manifest : Fields) (name : String) : installed? manifest name =
    (((packagesOf manifest false).get? name).map fun version => (version.string?.getD "", false)).or
      (((packagesOf manifest true).get? name).map fun version => (version.string?.getD "", true)) := by
  have hget : ∀ dev, (packages? manifest dev).bind (Fields.get? · name) =
      (packagesOf manifest dev).get? name := by
    intro dev
    cases h : packages? manifest dev <;> simp [packagesOf, h, get?]
  simp only [installed?, List.findSome?_cons, List.findSome?_nil, hget]
  cases (packagesOf manifest false).get? name <;> cases (packagesOf manifest true).get? name <;> rfl

/-- The removals that a survey asks for. -/
def removals (manifest : Fields) : List DependencyChange :=
  [false, true].flatMap fun dev => (packagesOf manifest dev).filterMap (removal? dev)

/-- The issues with the packages of a section. -/
def issuesOf (packages : Fields) : List String := packages.filterMap fun package => issue? package.1

lemma changes_ofFields (manifest : Fields) (target : TargetStack) : (ofFields manifest target).changes =
    removals manifest ++ viewPackages.filterMap (update? manifest) ++
      (targetPackages target).filterMap (addition? manifest) := rfl

lemma issues_ofFields (manifest : Fields) (target : TargetStack) : (ofFields manifest target).issues =
    [false, true].flatMap fun dev => issuesOf (packagesOf manifest dev) := rfl

lemma mem_removals : change ∈ removals manifest ↔ ∃ dev, ∃ package ∈ packagesOf manifest dev,
    isFrameworkPackage package.1 = true ∧ change =
      { name := package.1, action := .remove, fromVersion := package.2.string?, dev } := by
  simp only [removals, List.mem_flatMap, List.mem_filterMap, removal?, Option.ite_none_right_eq_some,
    Option.some.injEq, eq_comm (a := change)]
  simp

lemma name_of_update? (h : update? manifest name = some change) :
    change.name = name ∧ change.action = .update := by
  obtain ⟨⟨version, dev⟩, -, hchange⟩ := Option.bind_eq_some_iff.mp h
  obtain ⟨-, hchange⟩ := Option.ite_none_right_eq_some.mp hchange
  cases hchange
  exact ⟨rfl, rfl⟩

lemma name_of_addition? {package : String × String × Bool} (h : addition? manifest package = some change) :
    change.name = package.1 ∧ change.action = .add := by
  obtain ⟨-, hchange⟩ := Option.ite_none_left_eq_some.mp h
  cases hchange
  exact ⟨rfl, rfl⟩

/-- Of changes that are made for different names, those of one name are the ones made for it. -/
lemma filter_name_filterMap {α : Type} (key : α → String) {make : α → Option DependencyChange}
    (hname : ∀ a change, make a = some change → change.name = key a) {as : List α}
    (hdistinct : (as.map key).Nodup) {a : α} (ha : a ∈ as) :
    (as.filterMap make).filter (·.name == key a) = (make a).toList := by
  have hother : ∀ {bs : List α}, key a ∉ bs.map key → (bs.filterMap make).filter (·.name == key a) = [] := by
    intro bs hbs
    refine List.filter_eq_nil_iff.mpr fun change hchange hsame => hbs ?_
    obtain ⟨b, hb, hmake⟩ := List.mem_filterMap.mp hchange
    rw [← beq_iff_eq.mp hsame, hname b change hmake]
    exact List.mem_map_of_mem hb
  induction as with
  | nil => simp at ha
  | cons b bs ih =>
    rw [List.map_cons, List.nodup_cons] at hdistinct
    rcases List.mem_cons.mp ha with rfl | hbs
    · cases hmake : make a with
      | none => rw [List.filterMap_cons_none hmake, hother hdistinct.1, Option.toList_none]
      | some change =>
        rw [List.filterMap_cons_some hmake, List.filter_cons_of_pos (by simp [hname a change hmake]),
          hother hdistinct.1, Option.toList_some]
    · have hne : key b ≠ key a := fun hsame => hdistinct.1 (hsame ▸ List.mem_map_of_mem hbs)
      cases hmake : make b with
      | none => rw [List.filterMap_cons_none hmake, ih hdistinct.2 hbs]
      | some change =>
        rw [List.filterMap_cons_some hmake, List.filter_cons_of_neg (by simp [hname b change hmake, hne]),
          ih hdistinct.2 hbs]

/-- No change of a kind that is made for other names has this one. -/
lemma filter_name_eq_nil {changes : List DependencyChange} (h : ∀ change ∈ changes, change.name ≠ name) :
    changes.filter (·.name == name) = [] := by
  simpa using h

lemma filter_name_removals (h : isFrameworkPackage name = false) :
    (removals manifest).filter (·.name == name) = [] := by
  refine filter_name_eq_nil fun change hchange hsame => ?_
  obtain ⟨dev, package, -, hframework, rfl⟩ := mem_removals.mp hchange
  rw [← hsame, hframework] at h
  cases h

/-- The changes of a package of the view library: its update, if it is an old one. -/
lemma filter_name_of_viewPackage (target : TargetStack) (h : name ∈ viewPackages) :
    (ofFields manifest target).changes.filter (·.name == name) = (update? manifest name).toList := by
  obtain ⟨hdistinct, hapart⟩ := names_apart target
  obtain ⟨hview, -, hdisjoint⟩ := List.nodup_append.mp hdistinct
  have hupdates : (viewPackages.filterMap (update? manifest)).filter (·.name == name) =
      (update? manifest name).toList := by
    refine filter_name_filterMap id (fun _ _ hupdate => (name_of_update? hupdate).1) ?_ h
    rwa [List.map_id]
  rw [changes_ofFields, List.filter_append, List.filter_append, hupdates,
    filter_name_removals (hapart name (List.mem_append_left _ h)).1, List.nil_append,
    filter_name_eq_nil, List.append_nil]
  intro change hchange hsame
  obtain ⟨package, hpackage, hadd⟩ := List.mem_filterMap.mp hchange
  refine hdisjoint name h package.1 (List.mem_map_of_mem hpackage) ?_
  rw [← hsame, (name_of_addition? hadd).1]

/-- The changes of a package that the target needs: its addition, if it is missing. -/
lemma filter_name_of_targetPackage {target : TargetStack} {package : String × String × Bool}
    (h : package ∈ targetPackages target) :
    (ofFields manifest target).changes.filter (·.name == package.1) =
      (addition? manifest package).toList := by
  obtain ⟨hdistinct, hapart⟩ := names_apart target
  obtain ⟨-, htarget, hdisjoint⟩ := List.nodup_append.mp hdistinct
  have hname : package.1 ∈ targetNames target := List.mem_map_of_mem h
  rw [changes_ofFields, List.filter_append, List.filter_append,
    filter_name_removals (hapart package.1 (List.mem_append_right _ hname)).1, List.nil_append,
    filter_name_filterMap Prod.fst (fun _ _ hadd => (name_of_addition? hadd).1) htarget h,
    filter_name_eq_nil,
    List.nil_append]
  intro change hchange hsame
  obtain ⟨view, hview, hupdate⟩ := List.mem_filterMap.mp hchange
  exact hdisjoint view hview package.1 hname ((name_of_update? hupdate).1.symm.trans hsame)

/-- A change is a removal of a framework package, or its name belongs to none. -/
lemma change_cases {target : TargetStack} (h : change ∈ (ofFields manifest target).changes) :
    (change.action = .remove ∧ isFrameworkPackage change.name = true) ∨
      isFrameworkPackage change.name = false ∧ issue? change.name = none := by
  have hapart := (names_apart target).2
  rw [changes_ofFields, List.append_assoc, List.mem_append, List.mem_append] at h
  rcases h with h | h | h
  · obtain ⟨dev, package, -, hframework, rfl⟩ := mem_removals.mp h
    exact .inl ⟨rfl, hframework⟩
  · obtain ⟨view, hview, hupdate⟩ := List.mem_filterMap.mp h
    rw [(name_of_update? hupdate).1]
    exact .inr (hapart view (List.mem_append_left _ hview))
  · obtain ⟨package, hpackage, hadd⟩ := List.mem_filterMap.mp h
    rw [(name_of_addition? hadd).1]
    exact .inr (hapart package.1 (List.mem_append_right _ (List.mem_map_of_mem hpackage)))

lemma issue?_name {target : TargetStack} (h : change ∈ (ofFields manifest target).changes) :
    issue? change.name = none := by
  rcases change_cases h with ⟨-, hframework⟩ | ⟨-, hissue⟩
  · simp [issue?, hframework]
  · exact hissue

lemma issuesOf_put {key : String} (h : issue? key = none) (packages : Fields) (value : Json) :
    issuesOf (packages.put key value) = issuesOf packages := by
  unfold put
  split_ifs with hkey
  · rw [issuesOf, List.filterMap_map, issuesOf]
    refine List.filterMap_congr fun package _ => ?_
    by_cases hkey : package.1 = key <;> simp [hkey]
  · clear hkey
    induction packages with
    | nil => simp [insertSorted, issuesOf, h]
    | cons package rest ih =>
      simp only [insertSorted]
      split_ifs
      · simp [issuesOf, h]
      · simp only [issuesOf, List.filterMap_cons] at ih ⊢
        rw [ih]

lemma issuesOf_erase {key : String} (h : issue? key = none) (packages : Fields) :
    issuesOf (packages.erase key) = issuesOf packages := by
  rw [issuesOf, erase, List.filterMap_filter, issuesOf]
  refine List.filterMap_congr fun package _ => ?_
  by_cases hkey : package.1 = key <;> simp [hkey, h]

/-- Changes of packages without an issue leave the issues of a section as they are. -/
lemma issuesOf_foldl {changes : List DependencyChange} (h : ∀ change ∈ changes, issue? change.name = none)
    (dev : Bool) (packages : Fields) :
    issuesOf (changes.foldl (changeSection dev) packages) = issuesOf packages := by
  induction changes generalizing packages with
  | nil => rfl
  | cons change rest ih =>
    obtain ⟨hchange, hrest⟩ := List.forall_mem_cons.mp h
    rw [List.foldl_cons, ih hrest]
    unfold changeSection
    split
    · exact issuesOf_erase hchange packages
    all_goals
      split_ifs
      · split
        · exact issuesOf_put hchange packages _
        · rfl
      · rfl

/-- The manifest after the changes of its survey. -/
def settledFields (manifest : Fields) (target : TargetStack) : Fields :=
  updateFields manifest (ofFields manifest target).changes target

section

variable (hplain : HasPlainSections manifest) (target : TargetStack)
include hplain

lemma packagesOf_settledFields (dev : Bool) : packagesOf (settledFields manifest target) dev =
    (ofFields manifest target).changes.foldl (changeSection dev) (packagesOf manifest dev) := by
  rw [settledFields, updateFields, packagesOf_updateScripts, packagesOf_foldl_applyChange (hplain dev)]

lemma get?_packagesOf_settledFields (name : String) (dev : Bool) :
    (packagesOf (settledFields manifest target) dev).get? name =
      (((ofFields manifest target).changes.filter (·.name == name)).foldl (changeSection dev)
        (packagesOf manifest dev)).get? name := by
  rw [packagesOf_settledFields hplain, get?_foldl_changeSection name dev _ rfl]

/-- Every package of the framework is gone from both sections. -/
lemma not_isFrameworkPackage {dev : Bool} {package : String × Json}
    (h : package ∈ packagesOf (settledFields manifest target) dev) :
    isFrameworkPackage package.1 = false := by
  by_contra hframework
  rw [Bool.not_eq_false] at hframework
  have hnone : (packagesOf (settledFields manifest target) dev).get? package.1 = none := by
    rw [get?_packagesOf_settledFields hplain target]
    -- All changes of the name are removals, and there is one if the package was there at all.
    have hremove : ∀ change ∈ (ofFields manifest target).changes.filter (·.name == package.1),
        change.action = .remove ∧ change.name = package.1 := by
      intro change hchange
      obtain ⟨hmem, hname⟩ := List.mem_filter.mp hchange
      rw [beq_iff_eq] at hname
      rcases change_cases hmem with ⟨haction, -⟩ | ⟨hother, -⟩
      · exact ⟨haction, hname⟩
      · rw [hname, hframework] at hother
        cases hother
    cases hchanges : (ofFields manifest target).changes.filter (·.name == package.1) with
    | nil =>
      refine get?_eq_none_iff.mpr fun field hfield hname => ?_
      have hremoval : ({ name := field.1, action := .remove, fromVersion := field.2.string?, dev } :
          DependencyChange) ∈ (ofFields manifest target).changes.filter (·.name == package.1) := by
        refine List.mem_filter.mpr ⟨?_, by simpa using hname⟩
        rw [changes_ofFields, List.append_assoc]
        exact List.mem_append_left _ (mem_removals.mpr ⟨dev, field, hfield, hname ▸ hframework, rfl⟩)
      rw [hchanges] at hremoval
      cases hremoval
    | cons first rest =>
      rw [hchanges] at hremove
      have hkeep : ∀ {changes : List DependencyChange} {packages : Fields},
          (∀ change ∈ changes, change.action = .remove ∧ change.name = package.1) →
          packages.get? package.1 = none →
          (changes.foldl (changeSection dev) packages).get? package.1 = none := by
        intro changes packages hall hstart
        induction changes generalizing packages with
        | nil => exact hstart
        | cons change rest ih =>
          obtain ⟨⟨haction, hname⟩, hrest⟩ := List.forall_mem_cons.mp hall
          refine ih hrest ?_
          rw [changeSection_remove haction, hname, get?_erase_self]
      obtain ⟨⟨haction, hname⟩, hrest⟩ := List.forall_mem_cons.mp hremove
      rw [List.foldl_cons]
      refine hkeep hrest ?_
      rw [changeSection_remove haction, hname, get?_erase_self]
  exact get?_eq_none_iff.mp hnone package h rfl

lemma removals_settledFields : removals (settledFields manifest target) = [] := by
  refine List.eq_nil_iff_forall_not_mem.mpr fun change hchange => ?_
  obtain ⟨dev, package, hpackage, hframework, -⟩ := mem_removals.mp hchange
  rw [not_isFrameworkPackage hplain target hpackage] at hframework
  cases hframework

/-- A package of the view library is in no old version any more. -/
lemma update?_settledFields (h : name ∈ viewPackages) :
    update? (settledFields manifest target) name = none := by
  have hget := get?_packagesOf_settledFields hplain target name
  simp only [filter_name_of_viewPackage target h] at hget
  cases hupdate : update? manifest name with
  | none =>
    have hsame : installed? (settledFields manifest target) name = installed? manifest name := by
      simp only [installed?_eq, hget, hupdate, Option.toList_none, List.foldl_nil]
    rw [update?, hsame, ← update?, hupdate]
  | some change =>
    obtain ⟨⟨version, dev⟩, hinstalled, hchange⟩ := Option.bind_eq_some_iff.mp hupdate
    obtain ⟨-, hchange⟩ := Option.ite_none_right_eq_some.mp hchange
    -- The new version stands where the old one was found, and the other section is as before.
    have hnew : installed? (settledFields manifest target) name = some ("^18.2.0", dev) := by
      rw [installed?_eq] at hinstalled ⊢
      simp only [hget, hupdate, ← Option.some.inj hchange, Option.toList_some, List.foldl_cons,
        List.foldl_nil, changeSection]
      cases dev with
      | false => simp [Json.string?]
      | true =>
        have hfirst : (packagesOf manifest false).get? name = none := by
          cases hfound : (packagesOf manifest false).get? name with
          | none => rfl
          | some found => simp [hfound] at hinstalled
        simp [hfirst, Json.string?]
    have hmajor : (majorVersion? "^18.2.0").any (· < 18) = false := by decide
    simp [update?, hnew, hmajor]

/-- What the target needs is installed. -/
lemma addition?_settledFields {package : String × String × Bool} (h : package ∈ targetPackages target) :
    addition? (settledFields manifest target) package = none := by
  have hget := get?_packagesOf_settledFields hplain target package.1
  simp only [filter_name_of_targetPackage h] at hget
  cases hadd : addition? manifest package with
  | none =>
    have hsame : installed? (settledFields manifest target) package.1 = installed? manifest package.1 := by
      simp only [installed?_eq, hget, hadd, Option.toList_none, List.foldl_nil]
    rw [← hadd, addition?, addition?, hsame]
  | some change =>
    obtain ⟨-, hchange⟩ := Option.ite_none_left_eq_some.mp hadd
    have hnew : (installed? (settledFields manifest target) package.1).isSome = true := by
      rw [installed?_eq]
      simp only [hget, hadd, ← Option.some.inj hchange, Option.toList_some, List.foldl_cons,
        List.foldl_nil, changeSection]
      cases package.2.2 <;> simp
    simp [addition?, hnew]

/-- A survey of a settled manifest asks for nothing and has the issues it had before. -/
theorem ofFields_settledFields : ofFields (settledFields manifest target) target =
    ⟨[], (ofFields manifest target).issues⟩ := by
  have hchanges : (ofFields (settledFields manifest target) target).changes = [] := by
    rw [changes_ofFields, removals_settledFields hplain, List.nil_append, List.append_eq_nil_iff]
    constructor
    · exact List.filterMap_eq_nil_iff.mpr fun name h => update?_settledFields hplain target h
    · exact List.filterMap_eq_nil_iff.mpr fun package h => addition?_settledFields hplain target h
  have hissues : (ofFields (settledFields manifest target) target).issues =
      (ofFields manifest target).issues := by
    have hsection : ∀ dev, issuesOf (packagesOf (settledFields manifest target) dev) =
        issuesOf (packagesOf manifest dev) := by
      intro dev
      rw [packagesOf_settledFields hplain, issuesOf_foldl fun change hchange => issue?_name hchange]
    simp only [issues_ofFields, hsection]
  rw [← hchanges, ← hissues]

end

end DependencySurvey

namespace Manifest

open DependencySurvey

/-- The scripts of a target are those of the target. -/
lemma targetScripts_targetScripts (target : TargetStack) (scripts : Fields) :
    targetScripts target (targetScripts target scripts) = targetScripts target scripts := by
  have hlacks : ∀ (fields : Fields) (key : String), ∀ field ∈ fields.erase key, field.1 ≠ key :=
    fun fields key => get?_eq_none_iff.mp (get?_erase_self fields key)
  have hexport : (targetScripts target scripts).erase "export" = targetScripts target scripts :=
    erase_eq (hlacks _ "export")
  cases target with
  | vite =>
    have hdev : (targetScripts .vite scripts).Holds "dev" (.string TargetStack.vite.devCommand) :=
      ((((holds_put_self _ _ _).put_of_ne (by decide) _).put_of_ne (by decide) _).erase_of_ne
        (by decide)).erase_of_ne (by decide)
    have hbuild : (targetScripts .vite scripts).Holds "build" (.string TargetStack.vite.buildCommand) :=
      (((holds_put_self _ _ _).put_of_ne (by decide) _).erase_of_ne (by decide)).erase_of_ne (by decide)
    have hpreview : (targetScripts .vite scripts).Holds "preview" (.string "vite preview") :=
      ((holds_put_self _ _ _).erase_of_ne (by decide)).erase_of_ne (by decide)
    have hstart : ∀ field ∈ targetScripts .vite scripts, field.1 ≠ "start" := fun field hfield =>
      hlacks _ "start" field (List.mem_of_mem_filter hfield)
    rw [targetScripts, hdev.put_eq, hbuild.put_eq, hpreview.put_eq, erase_eq hstart, hexport]
  | createReactApp =>
    have hdev : (targetScripts .createReactApp scripts).Holds "dev"
        (.string TargetStack.createReactApp.devCommand) :=
      (((holds_put_self _ _ _).put_of_ne (by decide) _).put_of_ne (by decide) _).erase_of_ne (by decide)
    have hbuild : (targetScripts .createReactApp scripts).Holds "build"
        (.string TargetStack.createReactApp.buildCommand) :=
      ((holds_put_self _ _ _).put_of_ne (by decide) _).erase_of_ne (by decide)
    have hstart : (targetScripts .createReactApp scripts).Holds "start"
        (.string TargetStack.createReactApp.devCommand) :=
      (holds_put_self _ _ _).erase_of_ne (by decide)
    rw [targetScripts, hdev.put_eq, hbuild.put_eq, hstart.put_eq, hexport]

/-- The changes that a survey of a manifest asks for settle it, when its sections of packages are objects or
absent: a survey of the changed manifest asks for no change and no command and has the same issues, and an
update without changes leaves the manifest as it is. -/
theorem update_reaches_fixed_point {manifest : Fields} (hplain : HasPlainSections manifest)
    (target : TargetStack) :
    ∃ survey again, ofManifest (some (.object manifest)) target = .ok survey ∧
      ofManifest (some (update (.object manifest) survey.changes target)) target = .ok again ∧
      again.changes = [] ∧ again.issues = survey.issues ∧ again.commands = "" ∧
      update (update (.object manifest) survey.changes target) [] target =
        update (.object manifest) survey.changes target := by
  refine ⟨ofFields manifest target, ⟨[], (ofFields manifest target).issues⟩, rfl, ?_, rfl, rfl, rfl, ?_⟩
  · exact congrArg Except.ok (ofFields_settledFields hplain target)
  · exact congrArg Json.object (updateObject_updateObject _ "scripts" (targetScripts_targetScripts target))

/-- A manifest with a package in both sections, a version that is no text and packages for every kind of
change. -/
def mixedManifest : Fields :=
  [("dependencies", .object [("next", .number (.whole 13)), ("next-auth", .null), ("react", .string "^17.0.2"),
      ("vite", .string "workspace:*")]),
    ("devDependencies", .object [("@next/mdx", .string "13"), ("next", .string "13.4.0"),
      ("react", .string "16"), ("react-dom", .string ">= 16.x")]),
    ("scripts", .string "none")]

theorem update_reaches_fixed_point_mixedManifest : HasPlainSections mixedManifest ∧
    ∃ survey again, ofManifest (some (.object mixedManifest)) .createReactApp = .ok survey ∧
      survey.changes.map (·.describe) = ["Remove next", "Remove @next/mdx", "Remove next", "Update react",
        "Update react-dom", "Add react-router-dom", "Add react-helmet-async", "Add @unpic/react",
        "Add react-scripts"] ∧
      ofManifest (some (update (.object mixedManifest) survey.changes .createReactApp)) .createReactApp =
        .ok again ∧
      again.changes = [] ∧ again.issues = survey.issues ∧ again.commands = "" ∧
      update (update (.object mixedManifest) survey.changes .createReactApp) [] .createReactApp =
        update (.object mixedManifest) survey.changes .createReactApp := by
  have hplain : HasPlainSections mixedManifest := by
    intro dev value hfound
    cases dev <;> exact ⟨_, (Option.some.inj hfound).symm⟩
  obtain ⟨survey, again, hsurvey, hsettled⟩ := update_reaches_fixed_point hplain .createReactApp
  have hchanges : (ofFields mixedManifest .createReactApp).changes.map (·.describe) =
      ["Remove next", "Remove @next/mdx", "Remove next", "Update react", "Update react-dom",
        "Add react-router-dom", "Add react-helmet-async", "Add @unpic/react", "Add react-scripts"] := by
    decide
  cases hsurvey
  exact ⟨hplain, _, again, rfl, hchanges, hsettled⟩

end Manifest

end SpaMigration
