import SpaMigration.Dependency.Change
import SpaMigration.Json.Basic
import SpaMigration.Options

/-!
# Manifests

The fields of a manifest that a migration reads and writes: two sections of packages with their versions,
and the scripts. A section that is not an object is left alone.
-/
namespace SpaMigration.Manifest

open Json (Fields)

/-- The section of the packages for running or, if asked for, for development only. -/
def sectionName (dev : Bool) : String := if dev then "devDependencies" else "dependencies"

/-- The packages of a section, when it is an object. -/
def packages? (manifest : Fields) (dev : Bool) : Option Fields :=
  (manifest.get? (sectionName dev)).bind Json.fields?

/-- A manifest with an object under a key changed. Nothing happens when there is something else under the
key; when there is nothing, the object starts out empty. -/
def updateObject (manifest : Fields) (key : String) (change : Fields → Fields) : Fields :=
  match manifest.get? key with
  | some (.object fields) => manifest.put key (.object (change fields))
  | some _ => manifest
  | none => manifest.put key (.object (change []))

/-- A manifest without a package in one section. -/
def erasePackage (manifest : Fields) (dev : Bool) (name : String) : Fields :=
  match packages? manifest dev with
  | some packages => manifest.put (sectionName dev) (.object (packages.erase name))
  | none => manifest

/-- A manifest after one change. A package is removed from both sections. -/
def applyChange (manifest : Fields) (change : DependencyChange) : Fields :=
  match change.action with
  | .remove => erasePackage (erasePackage manifest false change.name) true change.name
  | .add | .update =>
    updateObject manifest (sectionName change.dev) fun packages =>
      match change.toVersion with
      | some version => packages.put change.name (.string version)
      | none => packages

/-- The scripts of a project that is built with the target. -/
def targetScripts (target : TargetStack) (scripts : Fields) : Fields :=
  let scripts := (scripts.put "dev" (.string target.devCommand)).put "build" (.string target.buildCommand)
  let scripts := match target with
    | .vite => (scripts.put "preview" (.string "vite preview")).erase "start"
    | .createReactApp => scripts.put "start" (.string target.devCommand)
  scripts.erase "export"

/-- A manifest after all changes, with the scripts of the target. -/
def updateFields (manifest : Fields) (changes : List DependencyChange) (target : TargetStack) : Fields :=
  updateObject (changes.foldl applyChange manifest) "scripts" (targetScripts target)

/-- A manifest after all changes; one that is no object stays as it is. -/
def update (manifest : Json) (changes : List DependencyChange) (target : TargetStack) : Json :=
  match manifest with
  | .object fields => .object (updateFields fields changes target)
  | other => other

end SpaMigration.Manifest
