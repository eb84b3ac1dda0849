import SpaMigration.Dependency.Manifest
import SpaMigration.Text.Basic

/-!
# Packages to change

Compares a manifest with what the target needs: the framework's own packages go, packages that only work
with it are named as issues, an old version of the view library is raised, and what the target needs is
added.
-/
namespace SpaMigration

open Json (Fields)

/-- Why a manifest could not be compared. -/
inductive DependencyError where
  | notAnObject
  deriving DecidableEq, Repr

namespace DependencyError

/-- The error for the reader. -/
def message : DependencyError → String
  | .notAnObject => "package.json is not a JSON object"

end DependencyError

/-- What is to be done about the packages of a project. -/
structure DependencySurvey where
  changes : List DependencyChange
  /-- One message for each package that does not work without the framework. -/
  issues : List String
  deriving DecidableEq, Repr

namespace DependencySurvey

/-- Packages of the framework itself. -/
def frameworkPackages : List String :=
  ["next", "eslint-config-next", "@next/font", "@next/bundle-analyzer", "@next/eslint-plugin-next",
   "@next/mdx"]

/-- The package makes sense with the framework only. -/
def isFrameworkPackage (name : String) : Bool :=
  frameworkPackages.contains name || Text.startsWith name.toList "@next/".toList

/-- Packages that need the framework, and what to do instead. -/
def incompatible : List (String × String) :=
  [("next-auth", "authentication must move to a separate API or a client SDK"),
   ("next-i18next", "use i18next with react-i18next directly"),
   ("next-seo", "use react-helmet-async for meta tags"),
   ("next-sitemap", "generate the sitemap with a Vite plugin or a build script"),
   ("next-mdx-remote", "use @mdx-js/rollup"),
   ("@vercel/og", "image generation needs a server runtime")]

/-- The issue with a package, if there is one. -/
def issue? (name : String) : Option String :=
  if isFrameworkPackage name then none
  else (incompatible.find? (·.1 == name)).map fun (_, hint) =>
    name ++ " is not compatible with a client-only build: " ++ hint

/-- The removal of a package, if it goes with the framework. -/
def removal? (dev : Bool) (package : String × Json) : Option DependencyChange :=
  if isFrameworkPackage package.1 then
    some { name := package.1, action := .remove, fromVersion := package.2.string?, dev }
  else none

/-- The version a package is installed in, empty if it is no text, and whether for development only. -/
def installed? (manifest : Fields) (name : String) : Option (String × Bool) :=
  [false, true].findSome? fun dev =>
    ((Manifest.packages? manifest dev).bind (Fields.get? · name)).map fun version =>
      (version.string?.getD "", dev)

/-- The number that digits write, if there is one and it fits in 64 bits. -/
def wholeNumber? (digits : List Char) : Option Nat :=
  if digits.isEmpty || !digits.all Char.isDigit then none
  else
    let n := digits.foldl (fun n d => n * 10 + (d.toNat - '0'.toNat)) 0
    if n < UInt64.size then some n else none

/-- The first number of a range of versions, when a point or nothing follows it. -/
def majorVersion? (range : String) : Option Nat :=
  wholeNumber? (((range.toList.dropWhile fun c => !c.isDigit)).takeWhile (· != '.'))

/-- The update of a package of the view library, if it is installed in an old version. -/
def update? (manifest : Fields) (name : String) : Option DependencyChange :=
  (installed? manifest name).bind fun (version, dev) =>
    if (majorVersion? version).any (· < 18) then
      some { name, action := .update, fromVersion := some version, toVersion := some "^18.2.0", dev }
    else none

/-- What the target needs: name, version, whether for development only. -/
def targetPackages (target : TargetStack) : List (String × String × Bool) :=
  [("react-router-dom", "^6.22.0", false), ("react-helmet-async", "^2.0.4", false),
   ("@unpic/react", "^0.1.14", false)] ++
  match target with
  | .vite => [("vite", "^5.1.0", true), ("@vitejs/plugin-react", "^4.2.1", true)]
  | .createReactApp => [("react-scripts", "5.0.1", false)]

/-- The addition of a package, if it is not installed. -/
def addition? (manifest : Fields) (package : String × String × Bool) : Option DependencyChange :=
  let (name, version, dev) := package
  if (installed? manifest name).isSome then none
  else some { name, action := .add, toVersion := some version, dev }

/-- What is to be done for a manifest. -/
def ofFields (manifest : Fields) (target : TargetStack) : DependencySurvey :=
  let sections := [false, true].map fun dev => (dev, (Manifest.packages? manifest dev).getD [])
  { changes :=
      sections.flatMap (fun (dev, packages) => packages.filterMap (removal? dev))
      ++ ["react", "react-dom"].filterMap (update? manifest)
      ++ (targetPackages target).filterMap (addition? manifest)
    issues := sections.flatMap fun (_, packages) => packages.filterMap fun package => issue? package.1 }

/-- What is to be done for a manifest, which must be an object; without one everything is added. -/
def ofManifest (manifest : Option Json) (target : TargetStack) :
    Except DependencyError DependencySurvey :=
  match manifest with
  | none => .ok (ofFields [] target)
  | some (.object fields) => .ok (ofFields fields target)
  | some _ => .error .notAnObject

/-- One command for several packages, if there are any. -/
def command? (head : String) (changes : List DependencyChange) : Option String :=
  if changes.isEmpty then none
  else some (head ++ " " ++ String.intercalate " " (changes.map (·.specifier)))

/-- The commands that carry out the changes: removals, then what runs, then what development needs. -/
def commands (survey : DependencySurvey) : String :=
  let pick (action : DependencyAction) (dev : Bool) : List DependencyChange :=
    survey.changes.filter fun change => change.action == action && change.dev == dev
  String.intercalate "\n" <|
    [command? "npm uninstall" (survey.changes.filter (·.action == .remove)),
     command? "npm install" (pick .add false ++ pick .update false),
     command? "npm install -D" (pick .add true ++ pick .update true)].filterMap id

end DependencySurvey

end SpaMigration
