import SpaMigration.Number.Share
import SpaMigration.Pattern.Parser
import SpaMigration.Pattern.Template

/-!
# Rules for source text

A rule replaces every match of a pattern. Rules are applied one after another, each to the text the
rules before it left, so the order of a rule list is part of its meaning. `RuleSet.stats` counts the
rules that match a text as it stands.
-/
namespace SpaMigration

/-- How much judgement a rule's change needs. -/
inductive Complexity where
  | simple
  | medium
  | complex
  deriving DecidableEq, Repr

namespace Complexity

/-- All degrees, from least to most. -/
def all : List Complexity := [simple, medium, complex]

/-- The name of a degree. -/
def name : Complexity → String
  | .simple => "simple"
  | .medium => "medium"
  | .complex => "complex"

/-- The degree with a name. -/
def ofName? (name : String) : Option Complexity := all.find? (·.name == name)

end Complexity

/-- The part of a project a rule is about. -/
inductive RuleCategory where
  | component
  | routing
  | dataFetching
  | api
  | config
  | general
  deriving DecidableEq, Repr

namespace RuleCategory

/-- All categories. -/
def all : List RuleCategory := [component, routing, dataFetching, api, config, general]

/-- The name of a category. -/
def name : RuleCategory → String
  | .component => "component"
  | .routing => "routing"
  | .dataFetching => "data-fetching"
  | .api => "api"
  | .config => "config"
  | .general => "general"

/-- The category with a name. -/
def ofName? (name : String) : Option RuleCategory := all.find? (·.name == name)

end RuleCategory

/-- A pattern, the text for each of its matches, and what the rule is. -/
structure Rule where
  pattern : Pattern
  replacement : Match → List Char
  description : String
  complexity : Complexity
  category : RuleCategory

namespace Rule

/-- The rule matches somewhere in the text. -/
def appliesTo (rule : Rule) (text : List Char) : Bool := rule.pattern.occursIn text

/-- The text with every match replaced. -/
def apply (rule : Rule) (text : List Char) : List Char :=
  rule.pattern.replaceAll rule.replacement text

/-- A rule from the notation of patterns and templates; `none` when the pattern cannot be read. -/
def parse? (pattern template description : String) (complexity : Complexity)
    (category : RuleCategory) : Option Rule :=
  (Pattern.parse? pattern).map fun (pattern, names) =>
    { pattern
      replacement := (Template.parse template).expand names
      description
      complexity
      category }

end Rule

/-- What a list of rules did to a text. -/
structure RuleOutcome where
  text : List Char
  applied : List String
  deriving DecidableEq, Repr

/-- How many rules match a text, by complexity and by category. -/
structure RuleStats where
  totalRules : Nat
  appliedRules : Nat
  complexity : Complexity → Nat
  category : RuleCategory → Nat

namespace RuleStats

/-- The share of the rules that match. -/
def rate (stats : RuleStats) : Share := .ofCounts stats.appliedRules stats.totalRules

end RuleStats

/-- An ordered list of rules. -/
abbrev RuleSet := List Rule

namespace RuleSet

/-- One rule applied to an outcome: text and list stay as they are when it does not match. -/
def step (outcome : RuleOutcome) (rule : Rule) : RuleOutcome :=
  if rule.appliesTo outcome.text then
    ⟨rule.apply outcome.text, outcome.applied ++ [rule.description]⟩
  else outcome

/-- Every rule once, in order. -/
def applyAll (rules : RuleSet) (text : List Char) : RuleOutcome :=
  rules.foldl step ⟨text, []⟩

/-- The rules of one complexity. -/
def ofComplexity (rules : RuleSet) (complexity : Complexity) : RuleSet :=
  rules.filter (·.complexity == complexity)

/-- The rules of one category. -/
def ofCategory (rules : RuleSet) (category : RuleCategory) : RuleSet :=
  rules.filter (·.category == category)

/-- Counts of the rules that match a text, none of them applied. -/
def stats (rules : RuleSet) (text : List Char) : RuleStats :=
  let matching : RuleSet := rules.filter (·.appliesTo text)
  { totalRules := rules.length
    appliedRules := matching.length
    complexity := fun complexity => (matching.ofComplexity complexity).length
    category := fun category => (matching.ofCategory category).length }

end RuleSet

end SpaMigration
