import SpaMigration.Proofs.PatternOverlap
import SpaMigration.Rule.Builtin

/-!
# What the built-in rules put in

Each of the built-in rules from the one for the router hook on puts in a few fixed texts, between stretches
that it keeps. They are listed here, so that it can be decided of a pattern whether a rule can bring it up.
-/
namespace SpaMigration

namespace Pattern

variable {before after : Option Char} {w : List Char} {groups : Groups}

lemma matches_cat_append (ps qs : List Pattern) :
    (cat (ps ++ qs)).Matches = Follows (cat ps).Matches (cat qs).Matches := by
  induction ps with
  | nil => exact (follows_rounds_zero (cat qs).Matches (cat qs).Matches).symm
  | cons p ps ih =>
    change Follows p.Matches (cat (ps ++ qs)).Matches = Follows (Follows p.Matches (cat ps).Matches) _
    rw [ih, follows_assoc]

lemma single_contains_iff {x c : Char} : (CharSet.single c).contains x = true ↔ x = c := by
  constructor
  · exact CharSet.eq_of_mem_range
  · rintro rfl
    simp [CharSet.single, CharSet.contains]

lemma contains_ofList {cs : List Char} {x : Char} : (CharSet.ofList cs).contains x = true ↔ x ∈ cs := by
  induction cs with
  | nil => simp [CharSet.ofList, CharSet.contains]
  | cons c cs ih =>
    have hcons : CharSet.ofList (c :: cs) = .union (.single c) (.ofList cs) := rfl
    rw [hcons, CharSet.contains, Bool.or_eq_true, ih, List.mem_cons, single_contains_iff]

lemma contains_compl_ofList {cs : List Char} {x : Char} :
    (CharSet.compl (.ofList cs)).contains x = true ↔ x ∉ cs := by
  rw [CharSet.contains, Bool.not_eq_true', ← Bool.not_eq_true, contains_ofList]

lemma matches_text_iff {s : String} : (text s).Matches before w after groups ↔ w = s.toList ∧ groups = [] := by
  rw [text]
  generalize s.toList = cs
  induction cs generalizing before w groups with
  | nil => exact Iff.rfl
  | cons c cs ih =>
    constructor
    · rintro ⟨_, v, _, gv, rfl, rfl, ⟨⟨x, rfl, hx⟩, rfl⟩, hv⟩
      obtain ⟨rfl, rfl⟩ := ih.mp hv
      rw [single_contains_iff.mp hx]
      exact ⟨rfl, rfl⟩
    · rintro ⟨rfl, rfl⟩
      exact ⟨[c], cs, [], [], rfl, rfl, ⟨⟨c, rfl, single_contains_iff.mpr rfl⟩, rfl⟩, ih.mpr ⟨rfl, rfl⟩⟩

lemma matches_optional {p : Pattern} (h : (optional p).Matches before w after groups) :
    (w = [] ∧ groups = []) ∨ p.Matches before w after groups := by
  have hrounds : ∃ n ≤ 1, Rounds p.Matches n before w after groups := by
    by_cases hset : ∃ chars, p = .set chars
    · obtain ⟨chars, rfl⟩ := hset
      obtain ⟨n, -, hmost, hrounds⟩ := h
      exact ⟨n, hmost 1 rfl, hrounds⟩
    · rw [optional, matches_repeated fun chars h => hset ⟨chars, h⟩] at h
      obtain ⟨n, -, hmost, hrounds⟩ := h
      exact ⟨n, hmost 1 rfl, hrounds⟩
  obtain ⟨n, hn, hrounds⟩ := hrounds
  rcases Nat.le_one_iff_eq_zero_or_eq_one.mp hn with rfl | rfl
  · exact .inl hrounds
  · obtain ⟨u, _, gu, _, rfl, rfl, hu, rfl, rfl⟩ := hrounds
    exact .inr (by simpa using hu)

/-- A pattern without groups reports none. -/
def groupFree : Pattern → Bool
  | .empty | .anchor _ | .set _ => true
  | .seq first second => first.groupFree && second.groupFree
  | .alt preferred other => preferred.groupFree && other.groupFree
  | .repeated body _ _ _ => body.groupFree
  | .group _ _ => false

lemma groups_eq_nil {p : Pattern} (hp : p.groupFree = true) (h : p.Matches before w after groups) :
    groups = [] := by
  induction p generalizing before w after groups with
  | empty => exact h.2
  | anchor => exact h.2.1
  | set chars => exact h.2
  | seq first second hfirst hsecond =>
    obtain ⟨hp₁, hp₂⟩ := Bool.and_eq_true_iff.mp hp
    obtain ⟨u, v, gu, gv, -, rfl, hu, hv⟩ := h
    rw [hfirst hp₁ hu, hsecond hp₂ hv, List.append_nil]
  | alt preferred other hpreferred hother =>
    obtain ⟨hp₁, hp₂⟩ := Bool.and_eq_true_iff.mp hp
    exact h.elim (hpreferred hp₁) (hother hp₂)
  | repeated body least most greedy hbody =>
    obtain ⟨n, -, hrounds⟩ := exists_rounds_of_matches_repeated h
    clear h
    induction n generalizing before w groups with
    | zero => exact hrounds.2
    | succ n ih =>
      obtain ⟨u, v, gu, gv, -, rfl, hu, hv⟩ := hrounds
      rw [hbody hp hu, ih hv, List.append_nil]
  | group => cases hp

/-- The text of the only group in a sequence. -/
lemma exists_group {index : Nat} {body : Pattern} (front back : List Pattern)
    (hfront : (cat front).groupFree = true) (hback : (cat back).groupFree = true)
    (h : (cat (front ++ .group index body :: back)).Matches before w after groups) :
    ∃ b v a inner, groups = (index, v) :: inner ∧ body.Matches b v a inner := by
  rw [matches_cat_append] at h
  obtain ⟨_, _, _, _, -, rfl, hf, _, _, _, _, -, rfl, ⟨inner, rfl, hbody⟩, hb⟩ := h
  rw [groups_eq_nil hfront hf, groups_eq_nil hback hb]
  exact ⟨_, _, _, inner, by simp, hbody⟩

end Pattern

/-- The new text is the old one with patches put in. -/
abbrev Patch.PutIn (patches : List Patch) : Option Char → List Char → List Char → Prop :=
  Rewritten (fun _ _ => True) (Patch.OneOf patches)

/-- One more stretch is swapped, for a text that ends with a word character if the stretch does. -/
lemma Patch.PutIn.put {patches : List Patch} {before : Option Char} {old new s t : List Char}
    (hpatch : ⟨new, false⟩ ∈ patches) (hold : old ≠ [])
    (hlast : old.getLast?.any Text.isWordChar = true → new.getLast?.any Text.isWordChar = true)
    (h : PutIn patches (lastOr before old) s t) : PutIn patches before (old ++ s) (new ++ t) :=
  .swap ⟨_, hpatch, rfl, hold, nofun, fun hword => .inl (hlast hword)⟩ h

lemma Patch.PutIn.keep {patches : List Patch} {before : Option Char} (u : List Char) {s t : List Char}
    (h : PutIn patches (lastOr before u) s t) : PutIn patches before (u ++ s) (u ++ t) :=
  h.keepAll fun _ _ => trivial

/-- A rule with the texts that it puts in. -/
structure PatchedRule where
  rule : Rule
  patches : List Patch
  /-- Every patch takes the place of a whole match. -/
  whole : Bool
  rewritten : ∀ text, Rewritten (fun before s => whole = true → rule.pattern.Unmatched before s)
    (Patch.OneOf patches) none text (rule.apply text)

namespace Rule

open Pattern (text blanks blanks1 many noneOf choice quote optional boundary)

variable {before after : Option Char} {old s t : List Char} {groups : Groups} {m : Match}

/-- A rule that puts one of a few texts in place of each match. -/
def patchedBy (rule : Rule) (texts : List (List Char)) (hconsumes : rule.pattern.consumes = true)
    (hlast : ∀ new ∈ texts, (new.getLast?.any Text.isWordChar || rule.pattern.endsApart) = true)
    (htexts : ∀ {before old after} {m : Match}, rule.pattern.Matches before old after m.groups →
      rule.replacement m ∈ texts) : PatchedRule where
  rule
  patches := texts.map rule.pattern.patch
  whole := true
  rewritten text := by
    refine (Pattern.rewritten_replaceAll hconsumes rule.replacement text).refine (fun _ _ h _ => h) ?_
    rintro before old _ s t ⟨m, rfl, -, hmatch⟩ hrest
    have hnew := htexts hmatch
    exact .swap ⟨_, List.mem_map_of_mem hnew, Pattern.puts_of_matches hconsumes (hlast _ hnew) hmatch⟩ hrest

/-- The text that a rule puts in place of a match without groups. -/
def plainText (rule : Rule) : List Char := rule.replacement ⟨.start [], .start [], []⟩

/-- A rule that puts the same text in place of each match. -/
def patched (rule : Rule) (hconsumes : rule.pattern.consumes = true := by decide +kernel)
    (hlast : (rule.plainText.getLast?.any Text.isWordChar || rule.pattern.endsApart) = true := by
      decide +kernel)
    (hfixed : ∀ m, rule.replacement m = rule.plainText := by exact fun _ => rfl) : PatchedRule :=
  rule.patchedBy [rule.plainText] hconsumes (List.forall_mem_singleton.mpr hlast)
    fun {_ _ _ m} _ => List.mem_singleton.mpr (hfixed m)

/-- A rule that keeps something of each match and puts in patches around it. -/
def patchedAround (rule : Rule) (patches : List Patch) (hconsumes : rule.pattern.consumes = true)
    (hputs : ∀ {before old s t} {m : Match}, rule.pattern.Matches before old s.head? m.groups →
      Patch.PutIn patches (lastOr before old) s t →
      Patch.PutIn patches before (old ++ s) (rule.replacement m ++ t)) : PatchedRule where
  rule
  patches
  whole := false
  rewritten text := by
    have hrewritten : Patch.PutIn patches none text (rule.apply text) := by
      refine (Pattern.rewritten_replaceAll hconsumes rule.replacement text).refine (fun _ _ _ => trivial) ?_
      rintro before old _ s t ⟨m, rfl, -, hmatch⟩ hrest
      exact hputs hmatch hrest
    exact hrewritten.refine (fun _ _ _ h => absurd h Bool.false_ne_true) .swap

lemma matches_routerReplace (h : routerReplace.pattern.Matches before old after groups) :
    ∃ argument, old = "router.replace(".toList ++ (argument ++ ")".toList) ∧ groups = [(1, argument)] := by
  obtain ⟨_, _, _, _, rfl, rfl, ⟨rfl, rfl, -⟩, _, _, _, _, rfl, rfl, hfront, argument, _, _, _, rfl, rfl,
    ⟨inner, rfl, hargument⟩, _, _, _, _, rfl, rfl, hback, rfl, rfl⟩ := h
  obtain ⟨rfl, rfl⟩ := Pattern.matches_text_iff.mp hfront
  obtain ⟨rfl, rfl⟩ := Pattern.matches_text_iff.mp hback
  obtain rfl := Pattern.groups_eq_nil (by decide) hargument
  exact ⟨argument, by simp, by simp⟩

/-- What the rule for the replacement of the history entry puts in around the argument. -/
def replacePatches : List Patch :=
  [⟨"navigate(".toList, false⟩, ⟨", \x7b replace: true \x7d)".toList, false⟩]

lemma putIn_routerReplace (h : routerReplace.pattern.Matches before old s.head? m.groups)
    (hrest : Patch.PutIn replacePatches (lastOr before old) s t) :
    Patch.PutIn replacePatches before (old ++ s) (routerReplace.replacement m ++ t) := by
  obtain ⟨argument, rfl, hgroups⟩ := matches_routerReplace h
  have hgroup : m.group 1 = argument := by simp [Match.group, Match.group?, hgroups]
  rw [lastOr_append, lastOr_append] at hrest
  simp only [routerReplace, around, hgroup, List.append_assoc]
  refine .put List.mem_cons_self (by decide) (fun h => absurd h (by decide)) (.keep argument ?_)
  exact .put (List.mem_cons_of_mem _ List.mem_cons_self) (by decide) (fun h => absurd h (by decide)) hrest

lemma matches_publicVariable (h : publicVariable.pattern.Matches before old after groups) :
    ∃ name, old = "process.env.NEXT_PUBLIC_".toList ++ name ∧ groups = [(1, name)] := by
  obtain ⟨_, _, _, _, rfl, rfl, hfront, name, _, _, _, rfl, rfl, ⟨inner, rfl, hname⟩, rfl, rfl⟩ := h
  obtain ⟨rfl, rfl⟩ := Pattern.matches_text_iff.mp hfront
  obtain rfl := Pattern.groups_eq_nil (by decide) hname
  exact ⟨name, by simp, by simp⟩

/-- What the rule for public variables puts in before the name. -/
def variablePatches : List Patch := [⟨"import.meta.env.VITE_".toList, false⟩]

lemma putIn_publicVariable (h : publicVariable.pattern.Matches before old s.head? m.groups)
    (hrest : Patch.PutIn variablePatches (lastOr before old) s t) :
    Patch.PutIn variablePatches before (old ++ s) (publicVariable.replacement m ++ t) := by
  obtain ⟨name, rfl, hgroups⟩ := matches_publicVariable h
  have hgroup : m.group 1 = name := by simp [Match.group, Match.group?, hgroups]
  rw [lastOr_append] at hrest
  simp only [publicVariable, around, hgroup, List.append_assoc]
  exact .put List.mem_cons_self (by decide) (fun _ => by decide) (.keep name hrest)

/-- The names of the functions that fetch data for a page. -/
def dataFetchingNames : List String := ["getStaticProps", "getServerSideProps", "getStaticPaths"]

lemma matches_dataFetchingName (h : dataFetchingName.Matches before old after groups) :
    ∃ name ∈ dataFetchingNames, old = name.toList ∧ groups = [] := by
  rcases h with h | h | h
  · exact ⟨_, by simp [dataFetchingNames], Pattern.matches_text_iff.mp h⟩
  · exact ⟨_, by simp [dataFetchingNames], Pattern.matches_text_iff.mp h⟩
  · exact ⟨_, by simp [dataFetchingNames], Pattern.matches_text_iff.mp h⟩

/-- An exported function that fetches data is `async` or not. -/
lemma matches_dataFetchingFunction (h : dataFetchingFunction.pattern.Matches before old after groups) :
    ∃ name ∈ dataFetchingNames, ∃ front back,
      (old = "export".toList ++ (front ++ ("function".toList ++ (back ++ name.toList))) ∧
        groups = [(2, name.toList)]) ∨
      ∃ gap, old = "export".toList ++ (front ++ ("async".toList ++ (gap ++ ("function".toList ++
          (back ++ name.toList))))) ∧
        groups = [(2, name.toList), (1, "async".toList ++ gap)] := by
  obtain ⟨_, _, _, _, rfl, rfl, hexport, front, _, _, _, rfl, rfl, hfront, _, _, _, _, rfl, rfl, hasync,
    _, _, _, _, rfl, rfl, hfunction, back, _, _, _, rfl, rfl, hback, _, _, _, _, rfl, rfl,
    ⟨_, rfl, hname⟩, _, _, _, _, rfl, rfl, ⟨rfl, rfl, -⟩, rfl, rfl⟩ := h
  obtain ⟨rfl, rfl⟩ := Pattern.matches_text_iff.mp hexport
  obtain ⟨rfl, rfl⟩ := Pattern.matches_text_iff.mp hfunction
  obtain ⟨name, hmem, rfl, rfl⟩ := matches_dataFetchingName hname
  obtain rfl := Pattern.groups_eq_nil (by decide) hfront
  obtain rfl := Pattern.groups_eq_nil (by decide) hback
  refine ⟨name, hmem, front, back, ?_⟩
  rcases Pattern.matches_optional hasync with ⟨rfl, rfl⟩ | ⟨_, rfl, _, _, _, _, rfl, rfl, hword, gap, _, _, _,
    rfl, rfl, hgap, rfl, rfl⟩
  · exact .inl ⟨by simp, by simp⟩
  · obtain ⟨rfl, rfl⟩ := Pattern.matches_text_iff.mp hword
    obtain rfl := Pattern.groups_eq_nil (by decide) hgap
    exact .inr ⟨gap, by simp, by simp⟩

/-- The remark on a function that fetches data. -/
def functionRemark (name : List Char) : List Char :=
  "/* next2vite: ".toList ++ name ++
    " runs at build/request time in Next.js; load this data client-side */\n".toList

/-- The start of a function that fetches data. -/
def functionStart (name : List Char) : List Char := "function ".toList ++ name

lemma replacement_dataFetchingFunction (m : Match) : dataFetchingFunction.replacement m =
    functionRemark (m.group 2) ++ m.group 1 ++ functionStart (m.group 2) := by
  change functionRemark (m.group 2) ++ m.group 1 ++ "function ".toList ++ m.group 2 = _
  exact List.append_assoc _ _ _

/-- What the rule for functions that fetch data puts in. It keeps the word `async` and what stands behind it;
the patch before takes in the first letter, so that a word character stands at the end. -/
def functionPatches : List Patch :=
  dataFetchingNames.flatMap fun name =>
    [⟨functionRemark name.toList ++ "a".toList, false⟩, ⟨functionStart name.toList, false⟩,
      ⟨functionRemark name.toList ++ functionStart name.toList, false⟩]

lemma mem_functionPatches {name : String} (hname : name ∈ dataFetchingNames) :
    ⟨functionRemark name.toList ++ "a".toList, false⟩ ∈ functionPatches ∧
    ⟨functionStart name.toList, false⟩ ∈ functionPatches ∧
    ⟨functionRemark name.toList ++ functionStart name.toList, false⟩ ∈ functionPatches := by
  simp only [functionPatches, List.mem_flatMap]
  exact ⟨⟨name, hname, List.mem_cons_self⟩, ⟨name, hname, List.mem_cons_of_mem _ List.mem_cons_self⟩,
    ⟨name, hname, List.mem_cons_of_mem _ (List.mem_cons_of_mem _ List.mem_cons_self)⟩⟩

lemma getLast?_functionStart : ∀ name ∈ dataFetchingNames,
    (functionStart name.toList).getLast?.any Text.isWordChar = true := by
  decide

lemma putIn_dataFetchingFunction (h : dataFetchingFunction.pattern.Matches before old s.head? m.groups)
    (hrest : Patch.PutIn functionPatches (lastOr before old) s t) :
    Patch.PutIn functionPatches before (old ++ s) (dataFetchingFunction.replacement m ++ t) := by
  obtain ⟨name, hname, front, back, hcases⟩ := matches_dataFetchingFunction h
  obtain ⟨hfirst, hsecond, hwhole⟩ := mem_functionPatches hname
  have hlast := getLast?_functionStart name hname
  have hstart : functionStart name.toList ≠ [] := List.append_ne_nil_of_left_ne_nil (by decide) _
  rcases hcases with ⟨rfl, hgroups⟩ | ⟨gap, rfl, hgroups⟩
  · have hgroup : m.group 2 = name.toList := by simp [Match.group, Match.group?, hgroups]
    have hnone : m.group 1 = [] := by simp [Match.group, Match.group?, hgroups]
    rw [replacement_dataFetchingFunction, hgroup, hnone, List.append_nil]
    refine .put hwhole (List.append_ne_nil_of_left_ne_nil (by decide) _) (fun _ => ?_) hrest
    rw [List.getLast?_append_of_ne_nil _ hstart]
    exact hlast
  · have hasync : "async".toList = "a".toList ++ "sync".toList := by decide
    have hgroup : m.group 2 = name.toList := by simp [Match.group, Match.group?, hgroups]
    have hgap : m.group 1 = "async".toList ++ gap := by simp [Match.group, Match.group?, hgroups]
    have hnew : dataFetchingFunction.replacement m ++ t = functionRemark name.toList ++ "a".toList ++
        ("sync".toList ++ gap ++ (functionStart name.toList ++ t)) := by
      rw [replacement_dataFetchingFunction, hgroup, hgap, hasync]
      simp only [List.append_assoc]
    have hold : "export".toList ++ (front ++ ("async".toList ++ (gap ++ ("function".toList ++
          (back ++ name.toList))))) = "export".toList ++ front ++ "a".toList ++ ("sync".toList ++ gap ++
        ("function".toList ++ back ++ name.toList)) := by
      rw [hasync]
      simp only [List.append_assoc]
    rw [hold, lastOr_append, lastOr_append] at hrest
    rw [hnew, hold, List.append_assoc, List.append_assoc ("sync".toList ++ gap)]
    refine .put hfirst (List.append_ne_nil_of_right_ne_nil _ (by decide)) (fun _ => ?_) (.keep _ ?_)
    · rw [List.getLast?_append_of_ne_nil _ (by decide)]
      decide
    · refine .put hsecond ?_ (fun _ => hlast) hrest
      rw [List.append_assoc]
      exact List.append_ne_nil_of_left_ne_nil (by decide) _

/-- The text for a constant that fetches data. -/
def constantText (name : List Char) : List Char :=
  "/* next2vite: ".toList ++ name ++
    " must be replaced with client-side data loading */\nconst ".toList ++ name

lemma replacement_dataFetchingConstant
    (h : dataFetchingConstant.pattern.Matches before old after m.groups) :
    dataFetchingConstant.replacement m ∈ dataFetchingNames.map fun name => constantText name.toList := by
  obtain ⟨_, _, _, _, hgroups, hname⟩ :=
    Pattern.exists_group [text "export", blanks1, text "const", blanks1] [boundary] rfl rfl h
  obtain ⟨name, hmem, rfl, -⟩ := matches_dataFetchingName hname
  have hgroup : m.group 1 = name.toList := by simp [Match.group, Match.group?, hgroups]
  refine List.mem_map.mpr ⟨name, hmem, ?_⟩
  rw [← hgroup]
  rfl

/-- The remark in place of the import of a font. -/
def fontRemark (source : List Char) : List Char :=
  "/* next/font/".toList ++ source ++ " removed: load fonts with a stylesheet or @fontsource */".toList

/-- The places that fonts come from. -/
def fontSources : List String := ["google", "local"]

lemma replacement_fontImport (h : fontImport.pattern.Matches before old after m.groups) :
    fontImport.replacement m ∈ fontSources.map fun source => fontRemark source.toList := by
  obtain ⟨_, _, _, _, hgroups, hsource⟩ := Pattern.exists_group
    [text "import", blanks1, text "\x7b", many (noneOf "\x7d"), text "\x7d", blanks1, text "from", blanks, quote,
      text "next/font/"] [quote, optional (text ";")] rfl rfl h
  obtain ⟨source, hmem, rfl, -⟩ : ∃ source ∈ fontSources, _ = source.toList ∧ _ = [] := by
    rcases hsource with hsource | hsource
    · exact ⟨_, by simp [fontSources], Pattern.matches_text_iff.mp hsource⟩
    · exact ⟨_, by simp [fontSources], Pattern.matches_text_iff.mp hsource⟩
  have hgroup : m.group 1 = source.toList := by simp [Match.group, Match.group?, hgroups]
  refine List.mem_map.mpr ⟨source, hmem, ?_⟩
  rw [← hgroup]
  rfl

/-- The built-in rules from the one for the router hook on. -/
def patchedRules : List PatchedRule :=
  [routerHook.patched, routerPush.patched,
    routerReplace.patchedAround replacePatches (by decide) putIn_routerReplace,
    routerBack.patched, routerQuery.patched, routerPathname.patched, pathnameHook.patched,
    publicVariable.patchedAround variablePatches (by decide) putIn_publicVariable,
    configImport.patched, runtimeConfig.patched,
    dataFetchingFunction.patchedAround functionPatches (by decide) putIn_dataFetchingFunction,
    dataFetchingConstant.patchedBy _ (by decide) (by decide +kernel) replacement_dataFetchingConstant,
    apiTypesImport.patched, requestType.patched, responseType.patched, pageTypeImport.patched,
    pageType.patched, appPropsImport.patched,
    fontImport.patchedBy _ (by decide) (by decide +kernel) replacement_fontImport]

end Rule

end SpaMigration
