import SpaMigration.Component.Basic
import SpaMigration.Pattern.Match
import SpaMigration.Text.Basic

/-!
# Blocks of imports

Import statements are inserted behind the last line of a text that looks like the end of an import, or in
front of the text when no line does.
-/
namespace SpaMigration.ImportBlock

open Pattern

/-- A module in quotes, as an import ends with it: an optional semicolon and blanks up to the end of the
line. -/
def lineTail : Pattern :=
  cat [quote, atLeastOne (noneOf "'\""), quote, optional (text ";"), many (oneOf " \t"),
    .anchor .lineEnd]

/-- The text of an import that starts a line and ends one. -/
def importLine : Pattern :=
  choice
    [cat [.anchor .lineStart, text "import", boundary, manyLazy (noneOf ";"), text "from", blanks, lineTail],
     cat [.anchor .lineStart, text "import", blanks, lineTail]]

/-- The statements that do not occur in the text yet, each once. -/
def missing (text : List Char) (imports : List String) : List String :=
  Text.dedup (imports.filter fun statement => !Text.occursIn statement.toList text)

/-- Statements on lines of their own. -/
def lines (statements : List String) : List Char :=
  Text.joinWith ['\n'] (statements.map String.toList)

/-- The text with the missing statements inserted behind its last import. -/
def insert (text : List Char) (imports : List String) : List Char :=
  match missing text imports with
  | [] => text
  | statements =>
    match (importLine.findAll text).getLast? with
    | some last => text.take last.stop.index ++ '\n' :: lines statements ++ last.stop.rest
    | none => lines statements ++ '\n' :: text

/-- The statement that imports the replacement of a component. -/
def statement? : LegacyComponent → Option String
  | .image => some "import \x7b Image \x7d from '@unpic/react';"
  | .link => some "import \x7b Link \x7d from 'react-router-dom';"
  | .head => some "import \x7b Helmet \x7d from 'react-helmet-async';"
  | .dynamic => some "import \x7b lazy, Suspense \x7d from 'react';"
  | .script => none

/-- The statements for several components, each once. -/
def generate (components : List LegacyComponent) : List Char :=
  lines (Text.dedup (components.filterMap statement?))

end SpaMigration.ImportBlock
