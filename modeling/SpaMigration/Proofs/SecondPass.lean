import SpaMigration.Proofs.RulePatches

/-!
# A second pass of the built-in rules

After one pass of the built-in rules, ten of them match nowhere: no rule behind them can bring their patterns
up again. The others can match again, where a rule deletes text, drops parentheses or ends a word; so a second
pass does nothing exactly when none of these twelve matches what the first one has left.
-/
namespace SpaMigration

namespace Pattern

lemma replaceAll_of_not_occursIn {p : Pattern} {text : List Char} (h : p.occursIn text = false)
    (replacement : Match → List Char) : p.replaceAll replacement text = text := by
  have hnone : p.findFrom? text none 0 = none := Option.isSome_eq_false_iff.mp h |> Option.isNone_iff_eq_none.mp
  have hnext : p.next? (Cursor.start text) none = none := by simp only [next?, Cursor.start, hnone]
  have hall : p.findAll text = [] := by simp only [findAll, matchesFrom, hnext]
  rw [replaceAll, hall]
  rfl

end Pattern

namespace RuleSet

/-- A rule that does not match leaves the text as it would by being applied. -/
lemma text_step (outcome : RuleOutcome) (rule : Rule) : (step outcome rule).text = rule.apply outcome.text := by
  rw [step]
  split_ifs with h
  · rfl
  · exact (Pattern.replaceAll_of_not_occursIn (Bool.not_eq_true _ ▸ h) _).symm

lemma text_foldl_step (rules : RuleSet) (outcome : RuleOutcome) :
    (rules.foldl step outcome).text = rules.foldl (fun text rule => rule.apply text) outcome.text := by
  induction rules generalizing outcome with
  | nil => rfl
  | cons rule rules ih => rw [List.foldl_cons, List.foldl_cons, ih, text_step]

lemma applied_prefix (rules : RuleSet) (outcome : RuleOutcome) :
    outcome.applied <+: (rules.foldl step outcome).applied := by
  induction rules generalizing outcome with
  | nil => exact List.prefix_rfl
  | cons rule rules ih =>
    refine List.IsPrefix.trans ?_ (ih (step outcome rule))
    rw [step]
    split_ifs
    · exact List.prefix_append _ _
    · exact List.prefix_rfl

/-- Rules do nothing to a text exactly when none of them matches it. -/
theorem applyAll_eq_self_iff {rules : RuleSet} {text : List Char} :
    rules.applyAll text = ⟨text, []⟩ ↔ ∀ rule ∈ rules, rule.appliesTo text = false := by
  rw [applyAll]
  induction rules with
  | nil => simp
  | cons rule rules ih =>
    rw [List.foldl_cons, List.forall_mem_cons, step]
    split_ifs with h
    · -- The first rule matches and stands at the head of the list.
      simp only [h, Bool.true_eq_false, false_and, iff_false]
      intro heq
      have hprefix := applied_prefix rules ⟨rule.apply text, [] ++ [rule.description]⟩
      rw [heq] at hprefix
      simp at hprefix
    · rw [ih]
      simp [h]

end RuleSet

namespace PatchedRule

/-- No match of the rule is left by a pass of it and of the rules behind it. -/
def isSettledBy (first : PatchedRule) (later : List PatchedRule) : Bool :=
  first.whole && first.rule.pattern.consumes && first.rule.pattern.steady &&
    (first :: later).all fun other => other.patches.all first.rule.pattern.avoids

/-- A rule that is settled by those behind it is settled by some of them. -/
lemma isSettledBy_filter {first : PatchedRule} {later : List PatchedRule}
    (h : first.isSettledBy later = true) (keep : PatchedRule → Bool) :
    first.isSettledBy (later.filter keep) = true := by
  simp only [isSettledBy, Bool.and_eq_true, List.all_eq_true, List.forall_mem_cons] at h ⊢
  obtain ⟨hfirst, hown, hlater⟩ := h
  exact ⟨hfirst, hown, fun other hother => hlater other (List.mem_of_mem_filter hother)⟩

lemma not_occursIn_foldl {q : Pattern} (hq : q.consumes = true) (hsteady : q.steady = true)
    {later : List PatchedRule} (hlater : ∀ other ∈ later, ∀ patch ∈ other.patches, q.avoids patch = true)
    {text : List Char} (htext : q.occursIn text = false) :
    q.occursIn ((later.map (·.rule)).foldl (fun text rule => rule.apply text) text) = false := by
  induction later generalizing text with
  | nil => exact htext
  | cons other later ih =>
    obtain ⟨hother, hlater⟩ := List.forall_mem_cons.mp hlater
    refine ih hlater (Pattern.not_occursIn_of_patched hq hsteady hother htext ?_)
    exact (other.rewritten text).refine (fun _ _ _ => trivial) fun h => .swap h

/-- A pass that ends with a rule and such that do not bring it up again leaves no match of it. -/
theorem not_appliesTo_of_isSettledBy {first : PatchedRule} {later : List PatchedRule}
    (h : first.isSettledBy later = true) (front : RuleSet) (text : List Char) :
    first.rule.appliesTo ((front ++ (first :: later).map (·.rule)).applyAll text).text = false := by
  simp only [isSettledBy, Bool.and_eq_true, List.all_eq_true, List.forall_mem_cons] at h
  obtain ⟨⟨⟨hwhole, hq⟩, hsteady⟩, hfirst, hlater⟩ := h
  rw [RuleSet.applyAll, RuleSet.text_foldl_step, List.foldl_append, List.map_cons, List.foldl_cons]
  have hown : ∀ text, first.rule.pattern.occursIn (first.rule.apply text) = false := fun text =>
    Pattern.not_occursIn_of_rewritten hq hsteady hfirst
      ((first.rewritten text).refine (fun _ _ h => h hwhole) fun h => .swap h)
  exact not_occursIn_foldl hq hsteady hlater (hown _)

end PatchedRule

namespace Rule

open Pattern (text blanks blanks1 many noneOf choice quote optional cat enters states Follows)

variable {before after before' after' : Option Char} {u v w old new : List Char} {groups groups' : Groups}

/-- The import of a font up to the names that it binds. -/
def fontImportFront : List Pattern := [text "import", blanks1, text "\x7b"]

/-- The import of a font from behind the names that it binds on. -/
def fontImportBack : List Pattern :=
  [text "\x7d", blanks1, text "from", blanks, quote, text "next/font/",
    .group 1 (choice [text "google", text "local"]), quote, optional (text ";")]

/-- The remarks in place of imports of fonts. -/
def fontRemarks : List (List Char) := fontSources.map fun source => fontRemark source.toList

lemma matches_fontImport : fontImport.pattern.Matches = Follows (cat fontImportFront).Matches
    (Follows (many (noneOf "\x7d")).Matches (cat fontImportBack).Matches) :=
  Pattern.matches_cat_append fontImportFront (many (noneOf "\x7d") :: fontImportBack)

lemma matches_names_iff : (many (noneOf "\x7d")).Matches before w after groups ↔ '}' ∉ w ∧ groups = [] := by
  have hcontains : ∀ x, (CharSet.compl (.ofList "\x7d".toList)).contains x = true ↔ x ≠ '}' := by
    intro x
    have hlist : CharSet.ofList "\x7d".toList = .union (.single '}') .none := by decide
    rw [hlist, CharSet.contains, CharSet.contains, CharSet.contains, Bool.or_false, Bool.not_eq_true',
      ← Bool.not_eq_true, Pattern.single_contains_iff]
  constructor
  · rintro ⟨n, -, -, hrounds⟩
    obtain ⟨-, hall, rfl⟩ := Pattern.rounds_set_iff.mp hrounds
    exact ⟨fun hmem => (hcontains _).mp (hall _ hmem) rfl, rfl⟩
  · rintro ⟨hnot, rfl⟩
    refine ⟨w.length, Nat.zero_le _, fun limit hlimit => absurd hlimit (Option.not_mem_none limit),
      Pattern.rounds_set_iff.mpr ⟨rfl, fun x hx => ?_, rfl⟩⟩
    exact (hcontains x).mpr fun h => hnot (h ▸ hx)

/-- No brace closes before the names. -/
lemma not_mem_of_matches_front (h : (cat fontImportFront).Matches before w after groups) : '}' ∉ w := by
  obtain ⟨_, _, _, _, rfl, -, himport, gap, _, _, _, rfl, -, ⟨n, -, -, hgap⟩, _, _, _, _, rfl, -, hopen, rfl, -⟩ := h
  obtain ⟨rfl, -⟩ := Pattern.matches_text_iff.mp himport
  obtain ⟨rfl, -⟩ := Pattern.matches_text_iff.mp hopen
  obtain ⟨-, hblank, -⟩ := Pattern.rounds_set_iff.mp hgap
  have hgap : '}' ∉ gap := fun hmem => absurd (hblank _ hmem) (by decide)
  have himport : '}' ∉ "import".toList := by decide
  have hopen : '}' ∉ "\x7b".toList := by decide
  simp only [List.mem_append, List.not_mem_nil, himport, hgap, hopen, or_self, not_false_eq_true]

/-- A match that would go on into a remark takes in the import of a font in place of which it stands. -/
lemma matches_fontImport_append (hw : fontImport.pattern.Matches before (u ++ v) after groups) (hu : u ≠ [])
    (hv : v ≠ []) (hnew : new ∈ fontRemarks) (hagree : Agree v new)
    (hold : fontImport.pattern.Matches before' old after' groups') (c : Option Char) :
    ∃ groups, fontImport.pattern.Matches c (u ++ old) after' groups := by
  have hremarks : ∀ new ∈ fontRemarks, new ≠ [] ∧
      (∀ r ∈ (cat fontImportFront).states fun _ => true, enters new r = false) ∧
      ∀ r ∈ (cat fontImportBack).states fun _ => true, enters new r = false := by decide
  obtain ⟨hne, hfront, hback⟩ := hremarks new hnew
  rw [matches_fontImport] at hw hold ⊢
  obtain ⟨front, _, gf, _, huv, -, hf, names, back, gn, gb, rfl, -, hn, hb⟩ := hw
  obtain ⟨front', _, gf', _, rfl, -, hf', names', back', gn', gb', rfl, -, hn', hb'⟩ := hold
  have hnames := (matches_names_iff.mp hn).1
  have hnames' := (matches_names_iff.mp hn').1
  -- Where the match has come to the names, these go on up to those of the import.
  have habsorb : ∀ part, u = front ++ part → '}' ∉ part →
      ∃ groups, Follows (cat fontImportFront).Matches
        (Follows (many (noneOf "\x7d")).Matches (cat fontImportBack).Matches) c
        (u ++ (front' ++ (names' ++ back'))) after' groups := by
    rintro part rfl hpart
    refine ⟨_, front, part ++ front' ++ names' ++ back', gf, _, by simp, rfl, ?_,
      part ++ front' ++ names', back', [], gb', by simp, rfl, ?_, ?_⟩
    · exact hf.of_anchorFree (by decide) _ _
    · refine matches_names_iff.mpr ⟨?_, rfl⟩
      simp only [List.mem_append, hpart, not_mem_of_matches_front hf', hnames', or_self, not_false_eq_true]
    · exact hb'.of_anchorFree (by decide) _ _
  rcases List.append_eq_append_iff.mp huv with ⟨front₂, rfl, rfl⟩ | ⟨part, rfl, hrest⟩
  · by_cases hfront₂ : front₂ = []
    · exact habsorb [] (by simp [hfront₂]) (by simp)
    · exact absurd (agree_of_append hagree) (Pattern.not_agree_of_states hfront hne
        (Pattern.accepts_of_matches hf) hu (by simp) hfront₂)
  · rcases List.append_eq_append_iff.mp hrest with ⟨back₁, rfl, rfl⟩ | ⟨names₂, rfl, -⟩
    · by_cases hback₁ : back₁ = []
      · exact habsorb names (by simp [hback₁]) hnames
      · exact absurd hagree (Pattern.not_agree_of_states hback hne (Pattern.accepts_of_matches hb) hback₁
          (by simp) hv)
    · exact habsorb part rfl fun hmem => hnames (List.mem_append_left _ hmem)

/-- The rule for fonts leaves no match of its own: one that goes on into a remark would have taken in the whole
of what the remark stands for. -/
lemma not_appliesTo_apply_fontImport (source : List Char) :
    fontImport.appliesTo (fontImport.apply source) = false := by
  have hremarks : ∀ new ∈ fontRemarks, new ≠ [] ∧ new.tails.all (fun tail => !enters tail fontImport.pattern) =
      true := by decide
  have hfull : ∀ {before old new after}, fontImport.pattern.Replaces fontImport.replacement before old new after →
      old ≠ [] ∧ new ≠ [] := by
    rintro before old _ after ⟨m, rfl, -, hmatch⟩
    exact ⟨Pattern.ne_nil_of_matches (by decide) hmatch, (hremarks _ (replacement_fontImport hmatch)).1⟩
  rw [← Bool.not_eq_true, Rule.appliesTo, Pattern.occursIn_iff]
  rintro ⟨x, w, y, groups, ht, hw⟩
  have hconsumes : fontImport.pattern.consumes = true := by decide
  have hne : w ≠ [] := Pattern.ne_nil_of_matches hconsumes hw
  have hrewritten := Pattern.rewritten_replaceAll hconsumes fontImport.replacement source
  rw [List.append_assoc] at ht
  cases hrewritten.locate hfull (.inl rfl) hne ht with
  | kept x' y' hs hkept _ => exact hkept w y' groups rfl (hw.of_anchorFree (by decide) _ _)
  | into x' u v old new s' huv hu hv hs hkept hswap hagree =>
    obtain ⟨m, rfl, -, hold⟩ := hswap
    rw [huv] at hw
    obtain ⟨groups', hmatch⟩ := matches_fontImport_append hw hu hv (replacement_fontImport hold) hagree hold _
    exact hkept (u ++ old) s' groups' rfl hmatch
  | within c old new after new' hswap hnew hnew' hagree =>
    obtain ⟨m, rfl, -, hold⟩ := hswap
    have htails := (hremarks _ (replacement_fontImport hold)).2
    have hnot := List.all_eq_true.mp htails new' ((List.mem_tails _ _).mpr hnew)
    rw [Pattern.enters_of_agree (Pattern.accepts_of_matches hw) hne hnew' hagree] at hnot
    cases hnot

end Rule

namespace RuleSet

open Rule

/-- The rules that match nothing of what a pass leaves. -/
def settled : RuleSet :=
  [routerHook, routerPush, routerBack, pathnameHook, configImport, runtimeConfig, apiTypesImport,
    pageTypeImport, appPropsImport, fontImport]

/-- The rules that may match what a pass leaves. -/
def reopening : RuleSet :=
  [useDirective, routerImport, navigationImport, routerReplace, routerQuery, routerPathname, publicVariable,
    dataFetchingFunction, dataFetchingConstant, requestType, responseType, pageType]

lemma builtin_eq : builtin = [useDirective, routerImport, navigationImport] ++ patchedRules.map (·.rule) := rfl

/-- The rule at a place of a list leaves no match of itself, nor do those behind it. -/
def isSettledAt (rules : List PatchedRule) (n : Nat) : Bool :=
  match rules.drop n with
  | [] => false
  | first :: later => first.isSettledBy later

/-- The places of the rules that are settled by the texts that the rules put in. -/
lemma isSettledAt_patchedRules : ∀ n ∈ [0, 1, 3, 6, 8, 9, 12, 15, 17], isSettledAt patchedRules n = true := by
  simp only [List.forall_mem_cons, List.not_mem_nil, false_imp_iff, implies_true, and_true, isSettledAt,
    patchedRules, List.drop_succ_cons, List.drop_zero, PatchedRule.isSettledBy, List.all_cons, List.all_nil,
    patched, patchedBy, patchedAround, plainText, List.map_cons, List.map_nil, fontSources, functionPatches,
    dataFetchingNames, List.flatMap_cons, List.flatMap_nil, List.append_nil, List.cons_append, List.nil_append]
  unfold routerHook routerPush routerBack routerQuery routerPathname pathnameHook configImport runtimeConfig
    apiTypesImport requestType responseType pageTypeImport pageType appPropsImport fontRemark variablePatches
    replacePatches functionRemark functionStart constantText fixed typeImportOf moduleEnd Pattern.text
  -- Literals are spelled out by a lemma, as evaluation takes them apart byte by byte.
  rw [String.toList_append]
  repeat rw [String.toList_ofList]
  refine ⟨?_, ?_, ?_, ?_, ?_, ?_, ?_, ?_, ?_⟩
  all_goals decide

/-- The rule at one of these places leaves no match of itself, also where some of the rules are left out. -/
lemma not_appliesTo_filter_of_drop {n : Nat} {first : PatchedRule} {later : List PatchedRule}
    (hdrop : patchedRules.drop n = first :: later) (hn : n ∈ [0, 1, 3, 6, 8, 9, 12, 15, 17])
    (keep : Rule → Bool) (hkeep : keep first.rule = true) (text : List Char) :
    first.rule.appliesTo (applyAll (builtin.filter keep) text).text = false := by
  have hsettled := isSettledAt_patchedRules n hn
  simp only [isSettledAt, hdrop] at hsettled
  have hbuiltin := builtin_eq
  rw [← List.take_append_drop n patchedRules, hdrop, List.map_append, ← List.append_assoc] at hbuiltin
  have hfirst : (keep ∘ PatchedRule.rule) first = true := hkeep
  rw [hbuiltin, List.filter_append, List.filter_map, List.filter_cons_of_pos hfirst]
  exact PatchedRule.not_appliesTo_of_isSettledBy (PatchedRule.isSettledBy_filter hsettled _) _ text

lemma not_appliesTo_of_drop {n : Nat} {first : PatchedRule} {later : List PatchedRule}
    (hdrop : patchedRules.drop n = first :: later) (hn : n ∈ [0, 1, 3, 6, 8, 9, 12, 15, 17])
    (text : List Char) : first.rule.appliesTo (builtin.applyAll text).text = false := by
  have hall := not_appliesTo_filter_of_drop hdrop hn (fun _ => true) rfl text
  rwa [List.filter_true] at hall

lemma not_appliesTo_fontImport (text : List Char) :
    fontImport.appliesTo (builtin.applyAll text).text = false := by
  have hbuiltin : builtin = builtin.dropLast ++ [fontImport] := rfl
  rw [hbuiltin, applyAll, text_foldl_step, List.foldl_append, List.foldl_cons, List.foldl_nil]
  exact not_appliesTo_apply_fontImport _

lemma forall_mem_settled_iff {P : Rule → Prop} : (∀ rule ∈ settled, P rule) ↔ P routerHook ∧ P routerPush ∧
    P routerBack ∧ P pathnameHook ∧ P configImport ∧ P runtimeConfig ∧ P apiTypesImport ∧ P pageTypeImport ∧
    P appPropsImport ∧ P fontImport := by
  simp only [settled, List.forall_mem_cons, List.not_mem_nil, false_imp_iff, implies_true, and_true]

/-- Every built-in rule is of the one kind or of the other. -/
lemma forall_mem_builtin_iff {P : Rule → Prop} :
    (∀ rule ∈ builtin, P rule) ↔ (∀ rule ∈ settled, P rule) ∧ ∀ rule ∈ reopening, P rule := by
  rw [forall_mem_settled_iff]
  simp only [builtin, reopening, List.forall_mem_cons, List.not_mem_nil, false_imp_iff, implies_true, and_true]
  constructor
  · rintro ⟨h₁, h₂, h₃, h₄, h₅, h₆, h₇, h₈, h₉, h₁₀, h₁₁, h₁₂, h₁₃, h₁₄, h₁₅, h₁₆, h₁₇, h₁₈, h₁₉, h₂₀, h₂₁, h₂₂⟩
    exact ⟨⟨h₄, h₅, h₇, h₁₀, h₁₂, h₁₃, h₁₆, h₁₉, h₂₁, h₂₂⟩,
      h₁, h₂, h₃, h₆, h₈, h₉, h₁₁, h₁₄, h₁₅, h₁₇, h₁₈, h₂₀⟩
  · rintro ⟨⟨h₄, h₅, h₇, h₁₀, h₁₂, h₁₃, h₁₆, h₁₉, h₂₁, h₂₂⟩,
      h₁, h₂, h₃, h₆, h₈, h₉, h₁₁, h₁₄, h₁₅, h₁₇, h₁₈, h₂₀⟩
    exact ⟨h₁, h₂, h₃, h₄, h₅, h₆, h₇, h₈, h₉, h₁₀, h₁₁, h₁₂, h₁₃, h₁₄, h₁₅, h₁₆, h₁₇, h₁₈, h₁₉, h₂₀, h₂₁, h₂₂⟩

/-- The settled rules match nothing of what a pass leaves. -/
theorem not_appliesTo_of_mem_settled (text : List Char) :
    ∀ rule ∈ settled, rule.appliesTo (builtin.applyAll text).text = false := by
  rw [forall_mem_settled_iff]
  refine ⟨?_, ?_, ?_, ?_, ?_, ?_, ?_, ?_, ?_, not_appliesTo_fontImport text⟩
  · exact not_appliesTo_of_drop (n := 0) rfl (by decide) text
  · exact not_appliesTo_of_drop (n := 1) rfl (by decide) text
  · exact not_appliesTo_of_drop (n := 3) rfl (by decide) text
  · exact not_appliesTo_of_drop (n := 6) rfl (by decide) text
  · exact not_appliesTo_of_drop (n := 8) rfl (by decide) text
  · exact not_appliesTo_of_drop (n := 9) rfl (by decide) text
  · exact not_appliesTo_of_drop (n := 12) rfl (by decide) text
  · exact not_appliesTo_of_drop (n := 15) rfl (by decide) text
  · exact not_appliesTo_of_drop (n := 17) rfl (by decide) text

/-- Texts of which a pass leaves a match for one of the other rules, in their order. -/
def reopeningTexts : List String :=
  ["'use client''use client'",
    "impimport\x7b\x7dfrom'next/navigation'ort\x7buseRouter\x7dfrom'next/router'",
    "impimport\x7b\x7dfrom'next/navigation'ort\x7b\x7dfrom'next/navigation'",
    "router.replace(getConfig().publicRuntimeConfig)",
    "=router.queryimport getConfig from'next/config'",
    "router.asPathimport getConfig from'next/config'",
    "process.env.NEXT_PUBLIC_process.env.NEXT_PUBLIC_A",
    "export function getStaticPathsexport const getStaticPaths",
    "export const getStaticPathsexport const getStaticPaths",
    "NextApiRequestimport \x7b\x7d from'next/font/local'",
    "NextApiResponseimport \x7b\x7d from'next/font/local'",
    "NextPageimport \x7b\x7d from'next/font/local'"]

lemma appliesTo_reopeningTexts : ∀ pair ∈ reopening.zip reopeningTexts,
    pair.1.appliesTo (builtin.applyAll pair.2.toList).text = true := by
  -- The literals of the rules are spelled out once for all twelve texts.
  generalize hrules : builtin = rules
  unfold builtin useDirective routerImport navigationImport routerHook routerPush routerReplace routerBack
    routerQuery routerPathname pathnameHook publicVariable configImport runtimeConfig dataFetchingFunction
    dataFetchingConstant dataFetchingName apiTypesImport requestType responseType pageTypeImport pageType
    appPropsImport fontImport fixed around importOf typeImportOf moduleEnd Pattern.text at hrules
  repeat rw [String.toList_ofList] at hrules
  subst hrules
  simp only [reopening, reopeningTexts, List.zip_cons_cons, List.zip_nil_left, List.forall_mem_cons,
    List.not_mem_nil, false_imp_iff, implies_true, and_true]
  refine ⟨?_, ?_, ?_, ?_, ?_, ?_, ?_, ?_, ?_, ?_, ?_, ?_⟩
  all_goals
    rw [String.toList_ofList]
    decide +kernel

/-- Each of the other rules matches what a pass leaves of some text. -/
theorem exists_appliesTo_of_mem_reopening {rule : Rule} (hrule : rule ∈ reopening) :
    ∃ text, rule.appliesTo (builtin.applyAll text).text = true := by
  have hzip : reopening = (reopening.zip reopeningTexts).map (·.1) := rfl
  rw [hzip] at hrule
  obtain ⟨pair, hpair, rfl⟩ := List.mem_map.mp hrule
  exact ⟨pair.2.toList, appliesTo_reopeningTexts pair hpair⟩

/-- A second pass does nothing exactly when none of the twelve rules that may match again does match what the
first one has left. -/
theorem second_pass_idle_iff (text : List Char) :
    builtin.applyAll (builtin.applyAll text).text = ⟨(builtin.applyAll text).text, []⟩ ↔
      ∀ rule ∈ reopening, rule.appliesTo (builtin.applyAll text).text = false := by
  rw [applyAll_eq_self_iff, forall_mem_builtin_iff]
  exact and_iff_right (not_appliesTo_of_mem_settled text)

/-- Where the first pass drops the parentheses of an argument, the second one finds a call to convert. -/
theorem call_converted_by_second_pass :
    builtin.applyAll "router.replace(getConfig().publicRuntimeConfig);".toList =
      ⟨"router.replace(import.meta.env);".toList, ["Converted getConfig() runtime config to import.meta.env"]⟩ ∧
    builtin.applyAll "router.replace(import.meta.env);".toList =
      ⟨"navigate(import.meta.env, \x7b replace: true \x7d);".toList,
        ["Converted router.replace() to navigate(..., \x7b replace: true \x7d)"]⟩ := by
  rw [String.toList_ofList, String.toList_ofList, String.toList_ofList]
  decide +kernel

end RuleSet

end SpaMigration
