import SpaMigration.Proofs.ComponentTurns
import SpaMigration.Proofs.FaultIsolation
import SpaMigration.Proofs.MentionedImports

/-!
# Markup files after a run

Where nothing stands in the way of a component in the text that the rules leave of a markup file, its module is
not mentioned in the final text of that file, so no import of it is left in any dialect. What stands in the way
is never reported: a second import of the module is left, and a text that is no program with types and markup
is left altogether.
-/
namespace SpaMigration

open Syntax Text

/-- The text, read in a dialect, imports the default of a module at its top level. -/
def importsDefault (dialect : Dialect) (text : List Char) (modulePath : String) : Bool :=
  (Syntax.parse? dialect text).any fun items =>
    ((⟨text, items⟩ : Source).defaultDeclaration? modulePath).isSome

/-- A module that is imported is mentioned. -/
lemma importsDefault_eq_false {component : LegacyComponent} {text : List Char}
    (h : ¬ component.IsMentioned text) (dialect : Dialect) :
    importsDefault dialect text component.modulePath = false := by
  rw [importsDefault, ← Bool.not_eq_true, Option.any_eq_true]
  rintro ⟨items, -, hdefault⟩
  obtain ⟨⟨declaration, name⟩, hdefault⟩ := Option.isSome_iff_exists.mp hdefault
  obtain ⟨item, -, hitem⟩ := List.exists_of_findSome?_eq_some hdefault
  split_ifs at hitem with hmodule
  exact h (infix_of_importedModule? (beq_iff_eq.mp hmodule))

namespace FileReplacement

variable {options : ReplacementOptions} {path : String} {text : List Char}

/-- The text of a file after the replacement of its components, which is the old one where that does not go to
the end. -/
def replacedText (options : ReplacementOptions) (path : String) (text : List Char) : List Char :=
  let (state, completed) := replace options path LegacyComponent.all { code := text }
  if !completed || state.code == text then text else ImportBlock.insert state.code state.imports

/-- What is no program uses nothing. -/
lemma replace_of_not_program (components : List LegacyComponent) {state : FileReplacement}
    (h : Source.parse? state.code = none) : replace options path components state = (state, true) := by
  induction components with
  | nil => rfl
  | cons component rest ih =>
    have hunused : ComponentUsage.ofText component state.code = .unused := by
      simp [ComponentUsage.ofText, h]
    simpa [replace, hunused, ComponentUsage.unused] using ih

lemma replacedText_of_not_program (h : Source.parse? text = none) :
    replacedText options path text = text := by
  have hsame : replace options path LegacyComponent.all { code := text } = ({ code := text }, true) :=
    replace_of_not_program _ h
  simp [replacedText, hsame]

/-- A component that nothing stands in the way of is not mentioned after the replacement. -/
theorem not_isMentioned_replacedText (path : String) {component : LegacyComponent}
    (hpackage : ¬ component.IsMentioned options.imagePackage.toList)
    (h : ∀ turn ∈ turns options LegacyComponent.all text, isClearTurn component turn = true) :
    ¬ component.IsMentioned (replacedText options path text) := by
  have hmarks : ∀ turn ∈ turns options LegacyComponent.all text, turn.2.head? ≠ some '\uFEFF' := by
    intro turn hturn
    have hclear := h turn hturn
    simp only [isClearTurn, Bool.and_eq_true, bne_iff_ne] at hclear
    exact hclear.1.1
  obtain ⟨final, hfinal, hcode, himports⟩ := replace_of_turns path { code := text } hmarks
  have hall : component ∈ LegacyComponent.all := by cases component <;> decide
  have hnone : ¬ component.IsMentioned final.code := hcode ▸ not_isMentioned_after_turns h (.inl hall)
  simp only [replacedText, hfinal, Bool.not_true, Bool.false_or]
  split_ifs with hsame
  · rwa [beq_iff_eq.mp hsame] at hnone
  · refine LegacyComponent.not_isMentioned_insert hnone fun statement hstatement => ?_
    rcases himports statement hstatement with hin | ⟨other, hin⟩
    · cases hin
    · exact LegacyComponent.not_isMentioned_replacementImports hpackage hin

end FileReplacement

namespace Migration

open ReplaceStage FileReplacement

variable {input : MigrationInput} {before after : Project} {file : ProjectFile} {text : String}

/-- The text of a file when a run is over: as the run has changed it, or else as it stands in the file. -/
def finalText (input : MigrationInput) (file : ProjectFile) : Except ReadError String :=
  match (run input).1.modifiedContent? file.path with
  | some content => .ok content
  | none => file.read

/-- The text of a file after the rules. -/
def ruledText (input : MigrationInput) (file : ProjectFile) : Except ReadError String :=
  currentText (ruleOutputs (alone input file)) file

/-- Of a source file that can be read and parsed the rules leave what they make of its text. -/
lemma ruledText_of_read (input : MigrationInput) {outcome : RuleOutcome}
    (hsource : ((ProjectPath.sourceKind? file.path).isSome && !ProjectPath.isSkipped file.path) = true)
    (hread : file.read = .ok text) (hparse : (Syntax.parse? (.ofPath file.path) text.toList).isSome = true)
    (houtcome : (transformerFor input.options).transformText text.toList = outcome) :
    ruledText input file = .ok (String.ofList outcome.text) := by
  have houtputs : ruleOutputs (alone input file) =
      ((transformerFor input.options).fileOutcome file).modified.map (·.output) := by
    rw [ruleOutputs_eq]
    exact List.flatMap_singleton _ _
  rw [ruledText, houtputs, Transformer.modified_of_read hsource hread hparse houtcome]
  split_ifs with hsame
  · rw [hsame, currentText, List.map_nil, List.find?_nil, hread]
  · simp [currentText, TransformedFile.output]

lemma content_updated (path content : String) (changes : List String) (output : Option ModifiedFile) :
    (updated path content changes output).content = content := by
  cases output <;> rfl

/-- The final text of a markup file that no file before it keeps from its turn. -/
lemma finalText_eq (hdistinct : input.project.paths.Nodup)
    (hproject : input.project = before ++ file :: after)
    (hreplace : input.options.replaceComponents = true) (hmarkup : ProjectPath.isMarkup file.path = true)
    (hkept : ProjectPath.isSkipped file.path = false) (hearlier : ∀ other ∈ before, ¬ Fails input other)
    (htext : ruledText input file = .ok text) :
    finalText input file =
      .ok (String.ofList (replacedText input.replacement file.path text.toList)) := by
  have hpath : file.path ≠ "package.json" := by
    intro hpath
    rw [hpath] at hmarkup
    exact absurd hmarkup (by decide)
  have hnone : ¬ ∃ other ∈ before, Fails input other := fun ⟨other, hother, hfails⟩ =>
    hearlier other hother hfails
  have hcontent : (run input).1.modifiedContent? file.path =
      ((replacedOutput input.replacement file
        (outputOf (ruleOutputs (alone input file)) file.path)).1).map (·.content) := by
    rw [modifiedContent?_run, outputOf_changedManifest input hpath, Option.none_or,
      outputOf_finalOutputs hdistinct hproject, if_neg hnone, outputOf_finalOutputs_alone, if_pos hreplace]
  have hunchanged : (match (outputOf (ruleOutputs (alone input file)) file.path).map (·.content) with
      | some content => Except.ok content
      | none => file.read) = .ok text := by
    rw [← htext, ruledText]
    cases houtput : outputOf (ruleOutputs (alone input file)) file.path <;> simp [currentText, houtput]
  rw [ruledText, ← currentText_outputOf] at htext
  rw [finalText, hcontent]
  simp only [replacedOutput, hmarkup, hkept, htext, replacedText, Bool.not_true, Bool.or_false,
    Bool.false_eq_true, if_false]
  obtain ⟨state, completed⟩ := FileReplacement.replace input.replacement file.path LegacyComponent.all
    { code := text.toList }
  cases completed with
  | false => simpa using hunchanged
  | true =>
    by_cases hsame : state.code = text.toList
    · simpa [hsame] using hunchanged
    · simp [hsame, content_updated]

/-- The final text of such a file, when it can be read and parsed: what the rules and then the components make
of its text. -/
lemma finalText_of_read {outcome : RuleOutcome} {final : List Char} (hdistinct : input.project.paths.Nodup)
    (hproject : input.project = before ++ file :: after)
    (hreplace : input.options.replaceComponents = true) (hmarkup : ProjectPath.isMarkup file.path = true)
    (hkept : ProjectPath.isSkipped file.path = false) (hearlier : ∀ other ∈ before, ¬ Fails input other)
    (hread : file.read = .ok text) (hparse : (Syntax.parse? (.ofPath file.path) text.toList).isSome = true)
    (houtcome : (transformerFor input.options).transformText text.toList = outcome)
    (hreplaced : replacedText input.replacement file.path outcome.text = final) :
    finalText input file = .ok (String.ofList final) := by
  have hsource : ((ProjectPath.sourceKind? file.path).isSome && !ProjectPath.isSkipped file.path) = true := by
    rw [hkept, beq_iff_eq.mp hmarkup]
    rfl
  have htext := ruledText_of_read input hsource hread hparse houtcome
  rw [finalText_eq hdistinct hproject hreplace hmarkup hkept hearlier htext, String.toList_ofList, hreplaced]

/-- A final text that is not the one of the file is an entry of the run. -/
lemma modifiedContent?_of_finalText {final : String} (hfinal : finalText input file = .ok final)
    (hread : file.read = .ok text) (hne : final ≠ text) :
    (run input).1.modifiedContent? file.path = some final := by
  rw [finalText] at hfinal
  cases hcontent : (run input).1.modifiedContent? file.path with
  | some content =>
    rw [hcontent] at hfinal
    rw [Except.ok.inj hfinal]
  | none =>
    rw [hcontent] at hfinal
    exact absurd (Except.ok.inj (hfinal.symm.trans hread)) hne

/-- In a run that replaces components, take a markup file that no file before it keeps from its turn, and the
text that the rules leave of it. If that is no program with types and markup, it is final. Otherwise each
component that nothing stands in the way of, turn after turn, is not mentioned in the final text; in
particular, in no dialect the final text imports its default. -/
theorem default_imports_gone (hdistinct : input.project.paths.Nodup)
    (hproject : input.project = before ++ file :: after)
    (hreplace : input.options.replaceComponents = true) (hmarkup : ProjectPath.isMarkup file.path = true)
    (hkept : ProjectPath.isSkipped file.path = false) (hearlier : ∀ other ∈ before, ¬ Fails input other)
    (htext : ruledText input file = .ok text) :
    ∃ final, finalText input file = .ok final ∧
      (Source.parse? text.toList = none → final = text) ∧
      ∀ component : LegacyComponent, ¬ component.IsMentioned input.replacement.imagePackage.toList →
        (∀ turn ∈ turns input.replacement LegacyComponent.all text.toList,
          isClearTurn component turn = true) →
        ¬ component.IsMentioned final.toList ∧
        ∀ dialect, importsDefault dialect final.toList component.modulePath = false := by
  refine ⟨_, finalText_eq hdistinct hproject hreplace hmarkup hkept hearlier htext, fun hnone => ?_, ?_⟩
  · rw [replacedText_of_not_program hnone, String.ofList_toList]
  · intro component hpackage hturns
    rw [String.toList_ofList]
    have hgone := not_isMentioned_replacedText file.path hpackage hturns
    exact ⟨hgone, importsDefault_eq_false hgone⟩

/-- The text of a page with a picture inside a link. -/
def cardText : String :=
  "import Pic from 'next/image';\nimport Link from 'next/link';\n<Link><Pic fill /></Link>;\n"

/-- The page with a directive, which the rules remove. -/
def cardPage : ProjectFile := ⟨"card.tsx", .inMemory ("'use client';\n" ++ cardText)⟩

theorem default_imports_gone_cardPage :
    ruledText { project := [linkedPage, cardPage] } cardPage = .ok cardText ∧
    (∀ component ∈ [LegacyComponent.image, .link],
      ∀ turn ∈ turns {} LegacyComponent.all cardText.toList, isClearTurn component turn = true) ∧
    ∃ final, finalText { project := [linkedPage, cardPage] } cardPage = .ok final ∧
      ∀ component ∈ [LegacyComponent.image, .link], ¬ component.IsMentioned final.toList ∧
        ∀ dialect, importsDefault dialect final.toList component.modulePath = false := by
  have hread : cardPage.read = .ok ("'use client';\n" ++ cardText) := rfl
  obtain ⟨hparse, houtcome⟩ :
      (Syntax.parse? (.ofPath cardPage.path) ("'use client';\n" ++ cardText).toList).isSome = true ∧
      (transformerFor {}).transformText ("'use client';\n" ++ cardText).toList =
        ⟨cardText.toList, ["Removed 'use client' / 'use server' directive"]⟩ := by
    unfold cardText
    rw [String.toList_append, String.toList_ofList, String.toList_ofList]
    decide +kernel
  have htext : ruledText { project := [linkedPage, cardPage] } cardPage = .ok cardText := by
    rw [ruledText_of_read { project := [linkedPage, cardPage] } (by decide) hread hparse houtcome,
      String.ofList_toList]
  have hclear : ∀ component ∈ [LegacyComponent.image, .link],
      ∀ turn ∈ turns {} LegacyComponent.all cardText.toList, isClearTurn component turn = true := by
    unfold cardText
    rw [String.toList_ofList]
    decide +kernel
  have hpackage : ∀ component ∈ [LegacyComponent.image, .link],
      ¬ component.IsMentioned ({} : ReplacementOptions).imagePackage.toList := by decide
  have hearlier : ∀ other ∈ [linkedPage], ¬ Fails { project := [linkedPage, cardPage] } other := by
    decide +kernel
  have hproject : ({ project := [linkedPage, cardPage] } : MigrationInput).project =
      [linkedPage] ++ cardPage :: [] := rfl
  obtain ⟨final, hfinal, -, hgone⟩ := default_imports_gone (by decide) hproject rfl
    (by decide) (by decide) hearlier htext
  exact ⟨htext, hclear, final, hfinal, fun component hmem =>
    hgone component (hpackage component hmem) (hclear component hmem)⟩

/-- A page that imports the default of one module twice. -/
def twiceImported : ProjectFile := ⟨"a.jsx", .inMemory
  "import A from 'next/link';\nimport B from 'next/link';\n<A><B /></A>;\n"⟩

/-- Only the first of the two imports goes, although the page is a markup file that is accepted. -/
theorem second_import_left :
    ProjectPath.isMarkup twiceImported.path = true ∧ ProjectPath.isSkipped twiceImported.path = false ∧
    (∃ text, twiceImported.read = .ok text ∧ text.toList.head? ≠ some '\uFEFF' ∧
      (Syntax.parse? (.ofPath twiceImported.path) text.toList).isSome = true) ∧
    ∃ final, finalText { project := [twiceImported] } twiceImported = .ok final ∧
      importsDefault (.ofPath twiceImported.path) final.toList LegacyComponent.link.modulePath = true := by
  have hmarkup : ProjectPath.isMarkup twiceImported.path = true := by decide
  have hkept : ProjectPath.isSkipped twiceImported.path = false := by decide
  have hread : twiceImported.read =
      .ok "import A from 'next/link';\nimport B from 'next/link';\n<A><B /></A>;\n" := rfl
  obtain ⟨hmark, hparse, houtcome, hreplaced⟩ :
      "import A from 'next/link';\nimport B from 'next/link';\n<A><B /></A>;\n".toList.head? ≠ some '\uFEFF' ∧
      (Syntax.parse? (.ofPath twiceImported.path)
        "import A from 'next/link';\nimport B from 'next/link';\n<A><B /></A>;\n".toList).isSome = true ∧
      (transformerFor {}).transformText
        "import A from 'next/link';\nimport B from 'next/link';\n<A><B /></A>;\n".toList =
        ⟨"import A from 'next/link';\nimport B from 'next/link';\n<A><B /></A>;\n".toList, []⟩ ∧
      replacedText {} twiceImported.path
        "import A from 'next/link';\nimport B from 'next/link';\n<A><B /></A>;\n".toList =
        "import B from 'next/link';\nimport \x7b Link \x7d from 'react-router-dom';\n<Link><B /></Link>;\n".toList := by
    rw [String.toList_ofList, String.toList_ofList]
    decide +kernel
  have hproject : ({ project := [twiceImported] } : MigrationInput).project = [] ++ twiceImported :: [] := rfl
  have hfinal := finalText_of_read (by decide) hproject rfl hmarkup hkept (by simp) hread hparse houtcome hreplaced
  rw [String.ofList_toList] at hfinal
  refine ⟨hmarkup, hkept, ⟨_, hread, hmark, hparse⟩, _, hfinal, ?_⟩
  rw [String.toList_ofList]
  decide +kernel

end Migration

end SpaMigration
