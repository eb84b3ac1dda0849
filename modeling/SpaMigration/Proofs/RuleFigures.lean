import Mathlib
import SpaMigration.Proofs.SecondPass

/-!
# Figures of rules and what the rules do

The figures count the rules that match a text as it stands, while a rule is applied where it matches the text that the
rules before it left. So the two can differ in every rule but one: the first that matches the text is the first that
is applied. They agree on whether anything is done at all, and the figures add up.
-/
namespace SpaMigration.RuleSet

/-- The rules that match in their turn, each the text that the rules before it left. -/
def matchingInTurn : RuleSet → List Char → RuleSet
  | [], _ => []
  | rule :: rules, text =>
    if rule.appliesTo text then rule :: matchingInTurn rules (rule.apply text) else matchingInTurn rules text

variable {rules : RuleSet} {text : List Char}

lemma matchingInTurn_sublist (rules : RuleSet) (text : List Char) : (matchingInTurn rules text).Sublist rules := by
  induction rules generalizing text with
  | nil => exact .slnil
  | cons rule rules ih =>
    rw [matchingInTurn]
    split_ifs
    · exact (ih (rule.apply text)).cons_cons rule
    · exact (ih text).cons rule

/-- The first rule that matches in its turn is the first that matches at all. -/
lemma head?_matchingInTurn (rules : RuleSet) (text : List Char) :
    (matchingInTurn rules text).head? = rules.find? (·.appliesTo text) := by
  induction rules with
  | nil => rfl
  | cons rule rules ih =>
    rw [matchingInTurn, List.find?_cons]
    split_ifs with h
    · rw [h, List.head?_cons]
    · rw [Bool.eq_false_of_not_eq_true h, ih]

lemma applied_foldl_step (rules : RuleSet) (outcome : RuleOutcome) : (rules.foldl step outcome).applied =
    outcome.applied ++ (matchingInTurn rules outcome.text).map (·.description) := by
  induction rules generalizing outcome with
  | nil => exact (List.append_nil _).symm
  | cons rule rules ih =>
    rw [List.foldl_cons, ih, matchingInTurn, step]
    split_ifs
    · rw [List.map_cons, List.append_assoc, List.singleton_append]
    · rfl

/-- What is listed as applied are the rules that match in their turn. -/
lemma applied_applyAll (rules : RuleSet) (text : List Char) :
    (rules.applyAll text).applied = (matchingInTurn rules text).map (·.description) := by
  rw [applyAll, applied_foldl_step, List.nil_append]

lemma appliedRules_eq_zero_iff : (rules.stats text).appliedRules = 0 ↔ ∀ rule ∈ rules, rule.appliesTo text = false := by
  simp only [stats, List.length_eq_zero_iff, List.filter_eq_nil_iff, Bool.not_eq_true]

/-- Counted by a property of which all values are listed once, the rules are as many as without. -/
lemma sum_length_filter {κ : Type} [DecidableEq κ] {values : List κ} (hnodup : values.Nodup)
    (hall : ∀ value, value ∈ values) (property : Rule → κ) (rules : RuleSet) :
    (values.map fun value => (rules.filter (property · == value)).length).sum = rules.length := by
  have hcount : ∀ value, (rules.filter (property · == value)).length =
      (rules.map property : Multiset κ).count value := by
    intro value
    rw [Multiset.coe_count, List.count, List.countP_map, List.countP_eq_length_filter]
    rfl
  rw [← List.sum_toFinset _ hnodup]
  simp only [hcount]
  rw [Multiset.sum_count_eq_card fun value _ => List.mem_toFinset.mpr (hall value), Multiset.coe_card, List.length_map]

/-- The figures of a text are zero exactly when the rules leave the text as it is, with nothing listed as applied;
otherwise the first rule that matches the text is listed first. What is listed are descriptions of the rules in their
order, and the figures by complexity and by category each add up to the number of rules that match. -/
theorem stats_predict_applyAll (rules : RuleSet) (text : List Char) :
    ((rules.stats text).appliedRules = 0 ↔ rules.applyAll text = ⟨text, []⟩) ∧
    ((rules.stats text).appliedRules ≠ 0 ↔ ∃ first, rules.find? (·.appliesTo text) = some first ∧
      (rules.applyAll text).applied.head? = some first.description) ∧
    (rules.applyAll text).applied.Sublist (rules.map (·.description)) ∧
    (Complexity.all.map (rules.stats text).complexity).sum = (rules.stats text).appliedRules ∧
    (RuleCategory.all.map (rules.stats text).category).sum = (rules.stats text).appliedRules ∧
    (rules.stats text).appliedRules ≤ (rules.stats text).totalRules := by
  have hhead : (rules.applyAll text).applied.head? = (rules.find? (·.appliesTo text)).map (·.description) := by
    rw [applied_applyAll, List.head?_map, head?_matchingInTurn]
  refine ⟨?_, ?_, ?_, ?_, ?_, List.length_filter_le _ _⟩
  · rw [appliedRules_eq_zero_iff, applyAll_eq_self_iff]
  · rw [ne_eq, appliedRules_eq_zero_iff, hhead]
    cases hfind : rules.find? (·.appliesTo text) with
    | none => simpa [List.find?_eq_none] using hfind
    | some first =>
      have hmatch : first.appliesTo text = true := by simpa using List.find?_some hfind
      have hsome : ¬ ∀ rule ∈ rules, rule.appliesTo text = false := fun hnone => by
        rw [hnone first (List.mem_of_find?_eq_some hfind)] at hmatch
        cases hmatch
      simp [hsome]
  · rw [applied_applyAll]
    exact (matchingInTurn_sublist rules text).map _
  · exact sum_length_filter (by decide) (fun complexity => by cases complexity <;> decide) Rule.complexity _
  · exact sum_length_filter (by decide) (fun category => by cases category <;> decide) Rule.category _

end SpaMigration.RuleSet
