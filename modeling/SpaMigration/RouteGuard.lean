import SpaMigration.Diagnostic
import SpaMigration.GeneratedFile
import SpaMigration.Options
import SpaMigration.Pattern.Match
import SpaMigration.Project

/-!
# Guards for routes

Middleware ran on a server in front of the paths it matched. Its place is taken by a component that
compares the current path with prefixes made of the matchers.
-/
namespace SpaMigration.RouteGuard

open Pattern (cat choice text oneOf noneOf many atLeastOne optional blanks quote)

/-- Where middleware may stand; the first file found counts. -/
def middlewarePaths : List String :=
  ["middleware.ts", "middleware.js", "src/middleware.ts", "src/middleware.js"]

/-- The list of matchers, or the only one; what is listed is the first group. -/
def matcherList : Pattern :=
  cat [text "matcher", blanks, text ":", blanks,
    .group 1 <| choice
      [cat [text "[", many (noneOf "]"), text "]"],
       cat [text "'", many (noneOf "'"), text "'"],
       cat [text "\"", many (noneOf "\""), text "\""]]]

/-- A text in quotes, which is the first group. -/
def quotedText : Pattern := cat [quote, .group 1 (atLeastOne (noneOf "'\"")), quote]

/-- The matchers that a middleware file lists. -/
def matchersIn (code : List Char) : List (List Char) :=
  match matcherList.find? code with
  | some found => (quotedText.findAll (found.group 1)).map (·.group 1)
  | none => []

/-- A named parameter of a matcher, possibly repeated. -/
def matcherParameter : Pattern :=
  cat [text ":", .set (.union (.range 'A' 'Z') (.union (.range 'a' 'z') (.single '_'))),
    many (.set .word), optional (oneOf "*+?")]

/-- The prefix of the paths that a matcher matches: what stands before its first group, without parameters;
a slash when nothing is left. -/
def prefixOf (matcher : List Char) : List Char :=
  let plain := (matcherParameter.replaceAll (fun _ => []) matcher).takeWhile (· != '(')
  if plain.isEmpty then ['/'] else plain

/-- The list of prefixes as it is written; without matchers every path is guarded. -/
def pathList (matchers : List (List Char)) : String :=
  let prefixes := if matchers.isEmpty then [['/']] else matchers.map prefixOf
  String.intercalate ", " (prefixes.map fun p => "'" ++ String.ofList p ++ "'")

/-- The text of the guard. -/
def content (source : String) (matchers : List (List Char)) (targetSyntax : TargetSyntax) : String :=
  let props := match targetSyntax with
    | .typescript => "\x7b children \x7d: \x7b children: ReactNode \x7d"
    | .javascript => "\x7b children \x7d"
  let typeImport := match targetSyntax with
    | .typescript => "import type \x7b ReactNode \x7d from 'react';\n"
    | .javascript => ""
  "// Client-side replacement for " ++ source ++ ".\n"
    ++ "// Edge middleware ran on the server before each request; this guard runs\n"
    ++ "// after navigation in the browser. Port the checks from " ++ source ++ " below.\n"
    ++ typeImport ++ "import \x7b useLocation \x7d from 'react-router-dom';\n\n"
    ++ "const GUARDED_PATHS = [" ++ pathList matchers ++ "];\n\n"
    ++ "export function RouteGuard(" ++ props ++ ") \x7b\n"
    ++ "  const location = useLocation();\n"
    ++ "  const guarded = GUARDED_PATHS.some((prefix) => location.pathname.startsWith(prefix));\n\n"
    ++ "  if (guarded) \x7b\n"
    ++ "    // e.g. return <Navigate to=\"/login\" replace /> when the check fails\n"
    ++ "  \x7d\n\n"
    ++ "  return children;\n"
    ++ "\x7d\n"

/-- The guard in place of a middleware file. -/
def render (source : String) (matchers : List (List Char)) (targetSyntax : TargetSyntax) :
    GeneratedFile where
  path := "src/components/RouteGuard." ++ targetSyntax.markupExtension
  content := content source matchers targetSyntax
  purpose := "Client route guard replacing " ++ source

/-- The middleware file of a project, if it has one. -/
def middleware? (project : Project) : Option ProjectFile := middlewarePaths.findSome? project.get?

/-- A guard, the middleware it replaces, and the warning about it. -/
structure Outcome where
  source : String
  file : GeneratedFile
  warning : Diagnostic

/-- The guard for a project with middleware; an error when that cannot be read. -/
def ofProject (project : Project) (targetSyntax : TargetSyntax) : Except ReadError (Option Outcome) :=
  match middleware? project with
  | none => .ok none
  | some file => do
    let code ← file.read
    return some
      { source := file.path
        file := render file.path (matchersIn code.toList) targetSyntax
        warning := .warningIn file.path "MIDDLEWARE_NOT_SUPPORTED"
          "Edge middleware has no client-side equivalent; a RouteGuard stub was generated" }

end SpaMigration.RouteGuard
