import SpaMigration.Component.Summary
import SpaMigration.Component.Usage
import SpaMigration.Project
import SpaMigration.Rule.Basic

/-!
# What a migration would meet

Looks at every source file of a project without changing it: the component it declares, the components of
the framework it uses, and the rules that match.
-/
namespace SpaMigration

/-- What is known of one file. -/
structure FileAnalysis where
  path : String
  component : Option ComponentSummary
  /-- The components of the framework in use; files without markup use none. -/
  usages : List (LegacyComponent × ComponentUsage)
  stats : RuleStats

namespace FileAnalysis

/-- The components of the framework that a text uses. -/
def usagesIn (code : List Char) : List (LegacyComponent × ComponentUsage) :=
  (LegacyComponent.all.map fun component => (component, ComponentUsage.ofText component code)).filter
    (·.2.used)

/-- The analysis of a file with a text. -/
def ofText (rules : RuleSet) (path : String) (code : List Char) : FileAnalysis where
  path := path
  component := ComponentSummary.ofText? code
  usages := if ProjectPath.isMarkup path then usagesIn code else []
  stats := rules.stats code

/-- The analysis of every source file; an error when one cannot be read. -/
def ofProject (rules : RuleSet) (project : Project) : Except ReadError (List FileAnalysis) :=
  (project.filter fun file => !ProjectPath.isSkipped file.path).mapM fun file => do
    return ofText rules file.path (← file.read).toList

end FileAnalysis

end SpaMigration
