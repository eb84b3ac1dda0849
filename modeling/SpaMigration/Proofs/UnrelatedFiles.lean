import SpaMigration.Proofs.MigratedMarkup
import SpaMigration.Proofs.PatternWords
import SpaMigration.Proofs.SecondPass

/-!
# Files that do not mention the framework

Every built-in rule needs one of eleven words, and so does every component, by the name of its module. A text
without the words is left as it is by both stages, so a run has no entry for a path under which no file has
one of them. Entries belong to paths: under a path that two files share, one of them can have an entry by the
other.
-/
namespace SpaMigration

open Text (mentions mentions_iff mentions_mono)

/-- The words by which a text mentions the framework. -/
def frameworkWords : List String :=
  ["next", "Next", "NEXT_PUBLIC_", "router", "usePathname()", "getConfig().", "use client", "use server",
    "getStaticProps", "getServerSideProps", "getStaticPaths"]

variable {text : List Char}

namespace RuleSet

/-- Every match of a built-in rule contains one of the words. -/
lemma completes_builtin : ∀ rule ∈ builtin, rule.pattern.completes frameworkWords [] = true := by
  decide

/-- The rules that options choose do nothing to a text without the words. -/
lemma applyAll_forOptions (h : mentions frameworkWords text = false) (options : Options) :
    (forOptions options).applyAll text = ⟨text, []⟩ := by
  refine applyAll_eq_self_iff.mpr fun rule hrule => ?_
  have hbuiltin : rule ∈ builtin := List.mem_of_mem_filter hrule
  rw [← Bool.not_eq_true]
  intro happlies
  rw [Pattern.mentions_of_occursIn (completes_builtin rule hbuiltin) happlies] at h
  cases h

end RuleSet

namespace Transformer

/-- A text without the words keeps its comments, too. -/
lemma transformText_of_unmentioned (h : mentions frameworkWords text = false) {t : Transformer}
    {options : Options} (hrules : t.rules = .forOptions options) : t.transformText text = ⟨text, []⟩ := by
  simp [transformText, hrules, RuleSet.applyAll_forOptions h]

lemma isListed_of_unmentioned {t : Transformer} {options : Options} (hrules : t.rules = .forOptions options)
    {file : ProjectFile} (hfile : ∀ text, file.read = .ok text → mentions frameworkWords text.toList = false) :
    t.isListed file = false := by
  cases hread : file.read with
  | error cause => simp [isListed, hread]
  | ok before => simp [isListed, hread, transformText_of_unmentioned (hfile before hread) hrules]

end Transformer

namespace ComponentUsage

/-- A text without the words uses no component. -/
lemma ofText_of_unmentioned (h : mentions frameworkWords text = false) (component : LegacyComponent) :
    ofText component text = unused := by
  have hmodule : Text.occursIn component.modulePath.toList text = false := by
    rw [← Bool.not_eq_true, Text.occursIn_iff]
    intro hinfix
    have hpath : mentions frameworkWords component.modulePath.toList = true := by
      cases component <;> decide
    rw [mentions_mono hpath hinfix] at h
    cases h
  simp [ofText, hmodule]

end ComponentUsage

namespace FileReplacement

/-- The replacement of components goes to the end of a text without the words and changes nothing. -/
lemma replace_of_unmentioned (options : ReplacementOptions) (path : String)
    (components : List LegacyComponent) {state : FileReplacement}
    (h : mentions frameworkWords state.code = false) :
    replace options path components state = (state, true) := by
  induction components with
  | nil => rfl
  | cons component rest ih =>
    simpa [replace, ComponentUsage.ofText_of_unmentioned h, ComponentUsage.unused] using ih

end FileReplacement

namespace ReplaceStage

variable {options : ReplacementOptions} {file : ProjectFile} {path : String}

/-- A step makes no entry for a path whose files do not have the words. -/
lemma outputOf_step_eq_none {stage : ReplaceStage}
    (hfile : file.path = path → ∀ text, file.read = .ok text → mentions frameworkWords text.toList = false)
    (h : outputOf stage.outputs path = none) : outputOf (step options stage file).outputs path = none := by
  by_cases hpath : path = file.path
  · subst hpath
    cases hcompleted : stage.completed with
    | false => simpa [step, hcompleted] using h
    | true =>
      rw [(step_self options file hcompleted).1, h, replacedOutput]
      split_ifs
      · rfl
      · cases hread : file.read with
        | error cause => simp [currentText, hread]
        | ok text =>
          have hsame : FileReplacement.replace options file.path LegacyComponent.all
              { code := text.toList } = ({ code := text.toList }, true) :=
            FileReplacement.replace_of_unmentioned _ _ _ (hfile rfl text hread)
          simp [currentText, hread, hsame]
  · rw [step_of_ne hpath]
    exact h

lemma outputOf_foldl_step_eq_none {files : List ProjectFile} {stage : ReplaceStage}
    (hfiles : ∀ file ∈ files, file.path = path →
      ∀ text, file.read = .ok text → mentions frameworkWords text.toList = false)
    (h : outputOf stage.outputs path = none) :
    outputOf (files.foldl (step options) stage).outputs path = none := by
  induction files generalizing stage with
  | nil => exact h
  | cons file rest ih =>
    obtain ⟨hfile, hrest⟩ := List.forall_mem_cons.mp hfiles
    exact ih hrest (outputOf_step_eq_none hfile h)

end ReplaceStage

namespace Migration

variable {input : MigrationInput} {path : String}

lemma outputOf_ruleOutputs_eq_none (hfiles : ∀ file ∈ input.project, file.path = path →
      ∀ text, file.read = .ok text → mentions frameworkWords text.toList = false) :
    outputOf (ruleOutputs input) path = none := by
  refine List.find?_eq_none.mpr fun entry hentry hsame => ?_
  have hlisted : entry.path ∈ (input.project.filter (transformerFor input.options).isListed).map (·.path) := by
    rw [← Transformer.paths_modified]
    rw [ruleOutputs_eq, ← List.map_flatMap] at hentry
    obtain ⟨transformed, hmem, rfl⟩ := List.mem_map.mp hentry
    exact List.mem_map_of_mem hmem
  obtain ⟨file, hfile, hpath⟩ := List.mem_map.mp hlisted
  obtain ⟨hproject, hlisted⟩ := List.mem_filter.mp hfile
  have hunlisted := Transformer.isListed_of_unmentioned (t := transformerFor input.options) rfl
    (hfiles file hproject (hpath.trans (beq_iff_eq.mp hsame)))
  rw [hunlisted] at hlisted
  cases hlisted

/-- There is no entry for a path under which no file has one of the words. -/
lemma modifiedFiles_of_unmentioned (hpath : path ≠ "package.json")
    (hfiles : ∀ file ∈ input.project, file.path = path →
      ∀ text, file.read = .ok text → mentions frameworkWords text.toList = false) :
    ∀ entry ∈ (run input).1.modifiedFiles, entry.path ≠ path := by
  have hrules := outputOf_ruleOutputs_eq_none hfiles
  have hfinal : outputOf (finalOutputs input) path = none := by
    rw [finalOutputs]
    split_ifs
    · exact ReplaceStage.outputOf_foldl_step_eq_none hfiles hrules
    · exact hrules
  intro entry hentry hsame
  have hnone : outputOf (run input).1.modifiedFiles path = none := by
    rw [run_modifiedFiles, outputOf_append, outputOf_changedManifest input hpath, hfinal, Option.or_none]
  exact List.find?_eq_none.mp hnone entry hentry (beq_iff_eq.mpr hsame)

/-- A file whose text has none of the words is left alone: the rules keep the text, with its comments or
without, the replacement of components finds nothing in it, and there is an entry of its path only if
another file of that path has one of the words. -/
theorem unrelated_file_left_alone {before after : Project} {file : ProjectFile} {text : String}
    (hproject : input.project = before ++ file :: after) (hpath : file.path ≠ "package.json")
    (hread : file.read = .ok text) (htext : mentions frameworkWords text.toList = false) :
    (∀ preserveComments, { transformerFor input.options with preserveComments }.transformText text.toList =
      ⟨text.toList, []⟩) ∧
    FileReplacement.replace input.replacement file.path LegacyComponent.all { code := text.toList } =
      ({ code := text.toList }, true) ∧
    ((∃ entry ∈ (run input).1.modifiedFiles, entry.path = file.path) →
      ∃ other ∈ before ++ after, other.path = file.path ∧
        ∃ found, other.read = .ok found ∧ mentions frameworkWords found.toList = true) := by
  refine ⟨fun preserveComments => Transformer.transformText_of_unmentioned htext rfl,
    FileReplacement.replace_of_unmentioned _ _ _ htext, ?_⟩
  rintro ⟨entry, hentry, hsame⟩
  by_contra hnone
  push Not at hnone
  refine modifiedFiles_of_unmentioned hpath (fun other hother hshared found hfound => ?_) entry hentry hsame
  have hcases : other = file ∨ other ∈ before ++ after := by
    rw [hproject] at hother
    simpa [or_left_comm] using hother
  rcases hcases with rfl | hothers
  · rw [hread] at hfound
    cases hfound
    exact htext
  · exact Bool.eq_false_iff.mpr (hnone other hothers hshared found hfound)

/-- The text of a table, with a comment. -/
def tableText : String := "// Rows of the table\nexport const row = (n: number) => <tr>\x7bn\x7d</tr>;\n"

/-- A page of the framework in front of a file with the table. The comments of files that rules change go. -/
def tableProject : MigrationInput where
  project := [⟨"pages/index.tsx", .inMemory "'use client';\nimport Head from 'next/head';\n<Head />;\n"⟩,
    ⟨"lib/table.tsx", .inMemory tableText⟩]
  options := { preserveComments := false }

theorem unrelated_file_left_alone_tableProject :
    mentions frameworkWords tableText.toList = false ∧
    (run tableProject).1.modifiedContent? "pages/index.tsx" =
      some "import \x7b Helmet \x7d from 'react-helmet-async';\n<Helmet />;\n" ∧
    ∀ entry ∈ (run tableProject).1.modifiedFiles, entry.path ≠ "lib/table.tsx" := by
  have htext : mentions frameworkWords tableText.toList = false := by
    unfold tableText
    rw [String.toList_ofList]
    decide
  obtain ⟨hparse, houtcome, hreplaced⟩ :
      (Syntax.parse? (.ofPath "pages/index.tsx")
        "'use client';\nimport Head from 'next/head';\n<Head />;\n".toList).isSome = true ∧
      (transformerFor tableProject.options).transformText
        "'use client';\nimport Head from 'next/head';\n<Head />;\n".toList =
          ⟨"import Head from 'next/head';\n<Head />;\n".toList, ["Removed 'use client' / 'use server' directive"]⟩ ∧
      FileReplacement.replacedText tableProject.replacement "pages/index.tsx"
        "import Head from 'next/head';\n<Head />;\n".toList =
          "import \x7b Helmet \x7d from 'react-helmet-async';\n<Helmet />;\n".toList := by
    rw [String.toList_ofList, String.toList_ofList, String.toList_ofList]
    decide +kernel
  have hfirst : tableProject.project = [] ++ ⟨"pages/index.tsx", .inMemory
      "'use client';\nimport Head from 'next/head';\n<Head />;\n"⟩ :: [⟨"lib/table.tsx", .inMemory tableText⟩] := rfl
  have hread : (⟨"pages/index.tsx", .inMemory "'use client';\nimport Head from 'next/head';\n<Head />;\n"⟩ :
      ProjectFile).read = .ok "'use client';\nimport Head from 'next/head';\n<Head />;\n" := rfl
  have hfinal := finalText_of_read (by decide) hfirst rfl (by decide) (by decide) (by simp) hread hparse houtcome
    hreplaced
  rw [String.ofList_toList] at hfinal
  have hindex := modifiedContent?_of_finalText hfinal hread (by decide)
  refine ⟨htext, hindex, fun entry hentry hsame => ?_⟩
  have hproject : tableProject.project = [⟨"pages/index.tsx", .inMemory
      "'use client';\nimport Head from 'next/head';\n<Head />;\n"⟩] ++ ⟨"lib/table.tsx", .inMemory tableText⟩ :: [] :=
    hfirst
  obtain ⟨-, -, hother⟩ := unrelated_file_left_alone hproject (by decide) rfl htext
  obtain ⟨other, hmem, hpath, -⟩ := hother ⟨entry, hentry, hsame⟩
  obtain rfl := List.mem_singleton.mp hmem
  exact absurd hpath (by decide)

/-- Two files of one path, of which the first has none of the words. -/
def sharedPath : MigrationInput where
  project := [⟨"a.ts", .inMemory "const x = 1;\n"⟩,
    ⟨"a.ts", .inMemory "const u = process.env.NEXT_PUBLIC_A;\n"⟩]

/-- A file without the words has an entry of its path, by the other file of that path. -/
theorem entry_by_file_of_same_path :
    ∃ file ∈ sharedPath.project, file.path ≠ "package.json" ∧
      (∃ text, file.read = .ok text ∧ mentions frameworkWords text.toList = false) ∧
      ∃ entry ∈ (run sharedPath).1.modifiedFiles, entry.path = file.path :=
  ⟨_, List.mem_cons_self, by decide, ⟨_, rfl, by decide⟩, by decide +kernel⟩

end Migration

end SpaMigration
