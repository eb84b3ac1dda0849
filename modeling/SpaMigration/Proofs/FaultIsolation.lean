import SpaMigration.Proofs.BatchOrder
import SpaMigration.Proofs.RunStages

/-!
# What files of a project do to each other

The rules treat each file by itself. The replacement of components goes through the files in their order and
ends where a replacement fails, so a file gets what it would get alone, unless a file before it fails; then
it keeps what the rules have made of it. From this follows exactly when a file can be left out of a project
without any change to the others.
-/
namespace SpaMigration

/-- The output of a path. -/
abbrev outputOf (outputs : List ModifiedFile) (path : String) : Option ModifiedFile :=
  outputs.find? (·.path == path)

lemma outputOf_append (outputs more : List ModifiedFile) (path : String) :
    outputOf (outputs ++ more) path = (outputOf outputs path).or (outputOf more path) :=
  List.find?_append

namespace ReplaceStage

/-- The output of a file with a new text and more changes. -/
def updated (path content : String) (changes : List String) : Option ModifiedFile → ModifiedFile
  | some output => { output with content, changes := output.changes ++ changes }
  | none => ⟨path, content, changes⟩

lemma outputOf_putOutput_self (path content : String) (changes : List String) (outputs : List ModifiedFile) :
    outputOf (putOutput path content changes outputs) path =
      some (updated path content changes (outputOf outputs path)) := by
  induction outputs with
  | nil => simp [putOutput, updated]
  | cons output rest ih =>
    simp only [putOutput]
    split_ifs with hpath
    · simp [hpath, updated]
    · simpa [hpath] using ih

lemma outputOf_putOutput_of_ne {path other : String} (hne : other ≠ path) (content : String)
    (changes : List String) (outputs : List ModifiedFile) :
    outputOf (putOutput path content changes outputs) other = outputOf outputs other := by
  induction outputs with
  | nil => simp [putOutput, Ne.symm hne]
  | cons output rest ih =>
    simp only [putOutput]
    split_ifs with hpath
    · have hother : (output.path == other) = false := by
        rw [beq_iff_eq.mp hpath]
        simpa using Ne.symm hne
      simp [hother]
    · cases hother : output.path == other with
      | true => simp [hother]
      | false => simpa [hother] using ih

/-- What becomes of the output of a file when its components are replaced, and whether that goes to the
end. -/
def replacedOutput (options : ReplacementOptions) (file : ProjectFile) (output : Option ModifiedFile) :
    Option ModifiedFile × Bool :=
  if ProjectPath.isSkipped file.path || !ProjectPath.isMarkup file.path then (output, true)
  else
    match currentText output.toList file with
    | .error _ => (output, true)
    | .ok text =>
      let (state, completed) :=
        FileReplacement.replace options file.path LegacyComponent.all { code := text.toList }
      if !completed then (output, false)
      else if state.code == text.toList then (output, true)
      else
        let final := String.ofList (ImportBlock.insert state.code state.imports)
        (some (updated file.path final state.changes output), true)

variable {options : ReplacementOptions} {stage : ReplaceStage} {file : ProjectFile}

lemma currentText_outputOf (outputs : List ModifiedFile) (file : ProjectFile) :
    currentText (outputOf outputs file.path).toList file = currentText outputs file := by
  cases h : outputOf outputs file.path with
  | none => simp only [currentText, Option.toList_none, List.find?_nil, h]
  | some output =>
    have hpath := List.find?_some h
    simp [currentText, h, hpath]

/-- A step of the replacement takes the output of its file to the next one. -/
lemma step_self (options : ReplacementOptions) (file : ProjectFile) (hcompleted : stage.completed = true) :
    outputOf (step options stage file).outputs file.path =
      (replacedOutput options file (outputOf stage.outputs file.path)).1 ∧
    (step options stage file).completed =
      (replacedOutput options file (outputOf stage.outputs file.path)).2 := by
  simp only [step, hcompleted, replacedOutput, currentText_outputOf, replaceIn, Bool.not_true, Bool.false_or]
  split_ifs with hsource
  · exact ⟨rfl, hcompleted⟩
  · cases currentText stage.outputs file with
    | error e => exact ⟨rfl, rfl⟩
    | ok text =>
      simp only
      split_ifs
      · exact ⟨rfl, rfl⟩
      · exact ⟨rfl, rfl⟩
      · exact ⟨outputOf_putOutput_self _ _ _ _, rfl⟩

lemma step_of_ne {path : String} (hne : path ≠ file.path) :
    outputOf (step options stage file).outputs path = outputOf stage.outputs path := by
  simp only [step, replaceIn]
  split_ifs
  · rfl
  · split
    · split_ifs
      · rfl
      · rfl
      · exact outputOf_putOutput_of_ne hne _ _ _
    · rfl

/-- A replacement that has failed stays where it is. -/
lemma foldl_step_of_failed (files : List ProjectFile) (h : stage.completed = false) :
    files.foldl (step options) stage = stage := by
  induction files with
  | nil => rfl
  | cons file rest ih =>
    have hstep : step options stage file = stage := by simp [step, h]
    rw [List.foldl_cons, hstep, ih]

/-- The replacement changes no output but those of its files. -/
lemma outputOf_foldl_step {files : List ProjectFile} {path : String}
    (hpath : ∀ file ∈ files, path ≠ file.path) (stage : ReplaceStage) :
    outputOf (files.foldl (step options) stage).outputs path = outputOf stage.outputs path := by
  induction files generalizing stage with
  | nil => rfl
  | cons file rest ih =>
    rw [List.foldl_cons, ih fun other ho => hpath other (List.mem_cons_of_mem _ ho)]
    exact step_of_ne (hpath file List.mem_cons_self)

/-- The replacement goes to the end exactly when it does for each file with its own output. -/
lemma completed_foldl_step {files : List ProjectFile} (hdistinct : (files.map (·.path)).Nodup)
    (hcompleted : stage.completed = true) :
    (files.foldl (step options) stage).completed = true ↔
      ∀ file ∈ files, (replacedOutput options file (outputOf stage.outputs file.path)).2 = true := by
  induction files generalizing stage with
  | nil => simpa using hcompleted
  | cons file rest ih =>
    rw [List.map_cons, List.nodup_cons] at hdistinct
    rw [List.foldl_cons, List.forall_mem_cons, ← (step_self options file hcompleted).2]
    cases hstep : (step options stage file).completed with
    | false => simp [foldl_step_of_failed rest hstep, hstep]
    | true =>
      rw [ih hdistinct.2 hstep]
      -- The step has left the outputs of the files behind as they were.
      have hothers : ∀ other ∈ rest,
          outputOf (step options stage file).outputs other.path = outputOf stage.outputs other.path := by
        intro other ho
        refine step_of_ne fun hsame => hdistinct.1 ?_
        rw [← hsame]
        exact List.mem_map_of_mem ho
      constructor
      · exact fun h => ⟨rfl, fun other ho => hothers other ho ▸ h other ho⟩
      · exact fun h other ho => hothers other ho ▸ h.2 other ho

/-- What becomes of the output of a file among others: what becomes of it by itself, if the replacement goes
to the end for all files before; otherwise it stays. -/
theorem outputOf_run (options : ReplacementOptions) {before after : Project}
    (hdistinct : (before ++ file :: after).paths.Nodup) (outputs : List ModifiedFile) :
    outputOf (run options (before ++ file :: after) outputs).outputs file.path =
      if ∀ other ∈ before, (replacedOutput options other (outputOf outputs other.path)).2 = true then
        (replacedOutput options file (outputOf outputs file.path)).1
      else outputOf outputs file.path := by
  have hpaths := hdistinct
  simp only [Project.paths, List.map_append, List.map_cons, List.nodup_append, List.nodup_cons] at hpaths
  obtain ⟨hbefore, ⟨hafter, _⟩, hapart⟩ := hpaths
  have hfront : outputOf (before.foldl (step options) { outputs }).outputs file.path =
      outputOf outputs file.path :=
    outputOf_foldl_step (fun other ho hsame => hapart other.path (List.mem_map_of_mem ho) file.path
      List.mem_cons_self hsame.symm) { outputs }
  have hback : ∀ stage : ReplaceStage, outputOf (after.foldl (step options) stage).outputs file.path =
      outputOf stage.outputs file.path :=
    outputOf_foldl_step fun other ho hsame => hafter (hsame ▸ List.mem_map_of_mem ho)
  rw [run, List.foldl_append, List.foldl_cons, hback]
  have hcompleted : (before.foldl (step options) { outputs }).completed = true ↔
      ∀ other ∈ before, (replacedOutput options other (outputOf outputs other.path)).2 = true :=
    completed_foldl_step hbefore rfl
  split_ifs with hall
  · rw [(step_self options file (hcompleted.mpr hall)).1, hfront]
  · have hfailed : (before.foldl (step options) { outputs }).completed = false := by
      rw [← Bool.not_eq_true, hcompleted]
      exact hall
    have hstep : step options (before.foldl (step options) { outputs }) file =
        before.foldl (step options) { outputs } := by simp [step, hfailed]
    rw [hstep, hfront]

end ReplaceStage

namespace Migration

open ReplaceStage

variable {input : MigrationInput} {file : ProjectFile} {before after : Project}

/-- The same run on a project of one file. -/
def alone (input : MigrationInput) (file : ProjectFile) : MigrationInput :=
  { input with project := [file] }

/-- The same run without the replacement of components. -/
def rulesOnly (input : MigrationInput) : MigrationInput :=
  { input with options := { input.options with replaceComponents := false } }

/-- The replacement of components is asked for and fails on the file. -/
def Fails (input : MigrationInput) (file : ProjectFile) : Prop :=
  input.options.replaceComponents = true ∧
    (ReplaceStage.run input.replacement [file] (ruleOutputs (alone input file))).completed = false

instance (input : MigrationInput) (file : ProjectFile) : Decidable (Fails input file) :=
  inferInstanceAs (Decidable (_ ∧ _))

/-- Among outputs that each file has under its own path, the one of a file is found as if it were alone. -/
lemma outputOf_flatMap {files : List ProjectFile} {outputsOf : ProjectFile → List ModifiedFile}
    (hpath : ∀ file, ∀ output ∈ outputsOf file, output.path = file.path)
    (hdistinct : (files.map (·.path)).Nodup) (hfile : file ∈ files) :
    outputOf (files.flatMap outputsOf) file.path = outputOf (outputsOf file) file.path := by
  induction files with
  | nil => simp at hfile
  | cons first rest ih =>
    rw [List.map_cons, List.nodup_cons] at hdistinct
    have hnone : ∀ files : List ProjectFile, file.path ∉ files.map (·.path) →
        outputOf (files.flatMap outputsOf) file.path = none := by
      intro files hnot
      refine List.find?_eq_none.mpr fun output ho hsame => hnot ?_
      obtain ⟨other, hother, ho⟩ := List.mem_flatMap.mp ho
      rw [← beq_iff_eq.mp hsame, hpath other output ho]
      exact List.mem_map_of_mem hother
    rw [List.flatMap_cons, outputOf_append]
    rcases List.mem_cons.mp hfile with rfl | hrest
    · rw [hnone rest hdistinct.1, Option.or_none]
    · have hfirst : outputOf (outputsOf first) file.path = none := by
        have hsingle := hnone [first] (by
          simp only [List.map_cons, List.map_nil, List.mem_singleton]
          exact fun hsame => hdistinct.1 (hsame ▸ List.mem_map_of_mem hrest))
        simpa using hsingle
      rw [hfirst, Option.none_or]
      exact ih hdistinct.2 hrest

lemma ruleOutputs_eq (input : MigrationInput) : ruleOutputs input = input.project.flatMap fun file =>
    ((transformerFor input.options).fileOutcome file).modified.map (·.output) := by
  rw [ruleOutputs, (Transformer.transform_eq_oneByOne _ _).1, Transformer.oneByOne_eq, List.map_flatMap]

/-- The rules treat each file by itself. -/
lemma outputOf_ruleOutputs (hdistinct : input.project.paths.Nodup) (hfile : file ∈ input.project) :
    outputOf (ruleOutputs input) file.path = outputOf (ruleOutputs (alone input file)) file.path := by
  have hpath : ∀ file, ∀ output ∈
      ((transformerFor input.options).fileOutcome file).modified.map (·.output), output.path = file.path := by
    intro file output ho
    obtain ⟨transformed, hmem, rfl⟩ := List.mem_map.mp ho
    have hpaths := (Transformer.fileOutcome_spec (transformerFor input.options) file).1
    have hin : transformed.path ∈ (((transformerFor input.options).fileOutcome file).modified.map (·.path)) :=
      List.mem_map_of_mem hmem
    rw [hpaths] at hin
    split_ifs at hin
    · exact List.mem_singleton.mp hin
    · simp at hin
  rw [ruleOutputs_eq, ruleOutputs_eq, outputOf_flatMap hpath hdistinct hfile]
  exact (outputOf_flatMap hpath (by simp) (List.mem_singleton_self file)).symm

/-- The final output of a file that is alone. -/
lemma outputOf_finalOutputs_alone (input : MigrationInput) (file : ProjectFile) :
    outputOf (finalOutputs (alone input file)) file.path =
      if input.options.replaceComponents then
        (replacedOutput input.replacement file (outputOf (ruleOutputs (alone input file)) file.path)).1
      else outputOf (ruleOutputs (alone input file)) file.path := by
  have hdistinct : (([] ++ file :: []) : Project).paths.Nodup := by simp [Project.paths]
  have hrun := outputOf_run input.replacement hdistinct (ruleOutputs (alone input file))
  simp only [finalOutputs]
  split_ifs with hreplace hreplace' hreplace'
  · exact hrun.trans (if_pos fun other ho => absurd ho List.not_mem_nil)
  · exact absurd hreplace hreplace'
  · exact absurd hreplace' hreplace
  · rfl

lemma fails_iff (input : MigrationInput) (file : ProjectFile) : Fails input file ↔
    input.options.replaceComponents = true ∧ (replacedOutput input.replacement file
      (outputOf (ruleOutputs (alone input file)) file.path)).2 = false := by
  have hcompleted : (ReplaceStage.run input.replacement [file] (ruleOutputs (alone input file))).completed =
      true ↔ ∀ other ∈ [file], (replacedOutput input.replacement other
        (outputOf (ruleOutputs (alone input file)) other.path)).2 = true :=
    completed_foldl_step (by simp) rfl
  rw [List.forall_mem_singleton] at hcompleted
  rw [Fails, ← Bool.not_eq_true, ← Bool.not_eq_true, hcompleted]

/-- The final output of a file in a project: what it gets alone, unless a file before it fails; then what
the rules give it alone. -/
theorem outputOf_finalOutputs (hdistinct : input.project.paths.Nodup)
    (hproject : input.project = before ++ file :: after) :
    outputOf (finalOutputs input) file.path =
      if ∃ other ∈ before, Fails input other then
        outputOf (finalOutputs (alone (rulesOnly input) file)) file.path
      else outputOf (finalOutputs (alone input file)) file.path := by
  have hfile : file ∈ input.project := by simp [hproject]
  have hrules := outputOf_ruleOutputs hdistinct hfile
  have hrulesOnly : outputOf (finalOutputs (alone (rulesOnly input) file)) file.path =
      outputOf (ruleOutputs input) file.path := by
    rw [outputOf_finalOutputs_alone, hrules]
    rfl
  rw [hrulesOnly, outputOf_finalOutputs_alone, ← hrules]
  by_cases hreplace : input.options.replaceComponents = true
  · have hfails : (∃ other ∈ before, Fails input other) ↔ ¬ ∀ other ∈ before,
        (replacedOutput input.replacement other (outputOf (ruleOutputs input) other.path)).2 = true := by
      push Not
      refine exists_congr fun other => and_congr_right fun ho => ?_
      have hother : other ∈ input.project := by simp [hproject, ho]
      rw [fails_iff, outputOf_ruleOutputs hdistinct hother, ← Bool.not_eq_true]
      exact and_iff_right hreplace
    rw [hproject] at hdistinct
    have hrun := outputOf_run input.replacement hdistinct (ruleOutputs input)
    rw [← hproject] at hrun
    simp only [finalOutputs, hreplace, if_true, hfails]
    rw [hrun, ite_not]
  · have hnone : ¬ ∃ other ∈ before, Fails input other := by
      rintro ⟨_, -, hfails⟩
      exact hreplace hfails.1
    simp only [finalOutputs, hreplace, hnone, if_false, Bool.false_eq_true]

/-- The only entry that is not made from a file is the one of the manifest. -/
lemma outputOf_changedManifest (input : MigrationInput) {path : String} (hpath : path ≠ "package.json") :
    outputOf (changedManifest input) path = none := by
  refine List.find?_eq_none.mpr fun entry hentry hsame => hpath ?_
  have hmanifest : entry.path = "package.json" := by
    simp only [changedManifest] at hentry
    split_ifs at hentry
    · split at hentry
      · obtain ⟨manifest, -, rfl⟩ := List.mem_map.mp hentry
        rfl
      · simp at hentry
    · simp at hentry
  rw [← beq_iff_eq.mp hsame, hmanifest]

lemma modifiedContent?_run (input : MigrationInput) (path : String) :
    (run input).1.modifiedContent? path =
      ((outputOf (changedManifest input) path).or (outputOf (finalOutputs input) path)).map (·.content) := by
  rw [MigrationResult.modifiedContent?, run_modifiedFiles, List.find?_append]

/-- The final text of a file in a project: what it gets alone, unless a file before it fails; then what it
gets alone without the replacement of components. -/
theorem modifiedContent?_of_file (hdistinct : input.project.paths.Nodup)
    (hproject : input.project = before ++ file :: after) :
    (run input).1.modifiedContent? file.path =
      if ∃ other ∈ before, Fails input other then
        (run (alone (rulesOnly input) file)).1.modifiedContent? file.path
      else (run (alone input file)).1.modifiedContent? file.path := by
  rw [modifiedContent?_run, outputOf_finalOutputs hdistinct hproject]
  split_ifs
  · exact (modifiedContent?_run (alone (rulesOnly input) file) file.path).symm
  · exact (modifiedContent?_run (alone input file) file.path).symm

/-- The replacement of components makes no difference to the final text of a file by itself. -/
def IsUntouched (input : MigrationInput) (file : ProjectFile) : Prop :=
  (run (alone (rulesOnly input) file)).1.modifiedContent? file.path =
    (run (alone input file)).1.modifiedContent? file.path

instance (input : MigrationInput) (file : ProjectFile) : Decidable (IsUntouched input file) :=
  inferInstanceAs (Decidable (_ = _))

/-- The same run on a project without one of its files. -/
abbrev without (input : MigrationInput) (before after : Project) : MigrationInput :=
  { input with project := before ++ after }

/-- Leaving out a file makes no difference to a file before it. -/
lemma modifiedContent?_without_of_before (hdistinct : input.project.paths.Nodup)
    (hdistinct' : (before ++ after).paths.Nodup) (hproject : input.project = before ++ file :: after)
    {other : ProjectFile} (hother : other ∈ before) :
    (run input).1.modifiedContent? other.path =
      (run (without input before after)).1.modifiedContent? other.path := by
  obtain ⟨front, rest, rfl⟩ := List.append_of_mem hother
  rw [List.append_assoc, List.cons_append] at hproject
  have hproject' : (without input (front ++ other :: rest) after).project = front ++ other :: (rest ++ after) := by
    simp
  rw [modifiedContent?_of_file hdistinct hproject, modifiedContent?_of_file hdistinct' hproject']
  rfl

/-- Leaving out a file makes a difference to a file behind it only if the one left out is the first to fail
and the other has components to replace. -/
lemma modifiedContent?_without_of_behind_iff {between rest : Project} {other : ProjectFile}
    (hdistinct : input.project.paths.Nodup)
    (hdistinct' : (before ++ (between ++ other :: rest)).paths.Nodup)
    (hproject : input.project = before ++ file :: (between ++ other :: rest)) :
    (run input).1.modifiedContent? other.path =
      (run (without input before (between ++ other :: rest))).1.modifiedContent? other.path ↔
    (Fails input file → (∀ earlier ∈ before ++ between, ¬ Fails input earlier) → IsUntouched input other) := by
  have hsplit : input.project = (before ++ file :: between) ++ other :: rest := by simp [hproject]
  have hsplit' : (without input before (between ++ other :: rest)).project =
      (before ++ between) ++ other :: rest := by simp
  have hwith := modifiedContent?_of_file hdistinct hsplit
  have hwithout : (run (without input before (between ++ other :: rest))).1.modifiedContent? other.path =
      if ∃ earlier ∈ before ++ between, Fails input earlier then
        (run (alone (rulesOnly input) other)).1.modifiedContent? other.path
      else (run (alone input other)).1.modifiedContent? other.path :=
    modifiedContent?_of_file hdistinct' hsplit'
  have hsome : (∃ earlier ∈ before ++ file :: between, Fails input earlier) ↔
      Fails input file ∨ ∃ earlier ∈ before ++ between, Fails input earlier := by
    simp only [List.mem_append, List.mem_cons, or_and_right, exists_or, exists_eq_left]
    exact or_left_comm
  simp only [hsome] at hwith
  rw [hwith, hwithout]
  by_cases hearlier : ∃ earlier ∈ before ++ between, Fails input earlier
  · obtain ⟨earlier, hmem, hfails⟩ := hearlier
    rw [if_pos (.inr ⟨earlier, hmem, hfails⟩), if_pos ⟨earlier, hmem, hfails⟩]
    exact iff_of_true rfl fun _ hnone => absurd hfails (hnone earlier hmem)
  · have hnone : ∀ earlier ∈ before ++ between, ¬ Fails input earlier :=
      fun earlier hmem hfails => hearlier ⟨earlier, hmem, hfails⟩
    simp only [hearlier, or_false, if_false]
    by_cases hfile : Fails input file
    · rw [if_pos hfile]
      exact ⟨fun h _ _ => h, fun h => h hfile hnone⟩
    · rw [if_neg hfile]
      exact iff_of_true rfl fun hfails => absurd hfails hfile

/-- Leaving out a file of a project makes no difference to the final text of the others, exactly when the
replacement of components does not fail on it, or fails on a file before it, or makes no difference to the
files behind it up to the next one on which it fails. -/
theorem others_unchanged_iff (hdistinct : input.project.paths.Nodup)
    (hproject : input.project = before ++ file :: after) :
    (∀ other ∈ before ++ after, (run input).1.modifiedContent? other.path =
      (run (without input before after)).1.modifiedContent? other.path) ↔
    (Fails input file → (∀ earlier ∈ before, ¬ Fails input earlier) →
      ∀ between other rest, after = between ++ other :: rest →
        (∀ earlier ∈ between, ¬ Fails input earlier) → IsUntouched input other) := by
  have hdistinct' : (before ++ after).paths.Nodup := by
    rw [hproject] at hdistinct
    refine hdistinct.sublist (List.Sublist.map _ ?_)
    exact (List.sublist_cons_self file after).append_left before
  constructor
  · rintro hsame hfails hbefore between other rest rfl hbetween
    have hother := hsame other (by simp)
    rw [modifiedContent?_without_of_behind_iff hdistinct hdistinct' hproject] at hother
    exact hother hfails (List.forall_mem_append.mpr ⟨hbefore, hbetween⟩)
  · intro h other hother
    rcases List.mem_append.mp hother with hmem | hmem
    · exact modifiedContent?_without_of_before hdistinct hdistinct' hproject hmem
    · obtain ⟨between, rest, rfl⟩ := List.append_of_mem hmem
      rw [modifiedContent?_without_of_behind_iff hdistinct hdistinct' hproject]
      intro hfails hnone
      obtain ⟨hbefore, hbetween⟩ := List.forall_mem_append.mp hnone
      exact h hfails hbefore between other rest rfl hbetween

/-- A page with a link. -/
def linkedPage : ProjectFile := ⟨"b.jsx", .inMemory "import Link from 'next/link';\n<Link/>;\n"⟩

/-- A page that starts with a byte-order mark, by which every edit lands too early: here within a letter. Its
type annotation keeps the rules from it. -/
def markedPage : ProjectFile :=
  ⟨"a.jsx", .inMemory "\uFEFFimport Link from 'next/link';\nconst e: string = 'é';<Link/>;\n"⟩

/-- Behind the last file there is none that could lose by its failure. -/
theorem others_unchanged_iff_markedPage :
    Fails { project := [linkedPage, markedPage] } markedPage ∧
    (run { project := [linkedPage, markedPage] }).1.modifiedContent? "b.jsx" =
      (run { project := [linkedPage] }).1.modifiedContent? "b.jsx" := by
  refine ⟨by decide +kernel, ?_⟩
  have hproject : ({ project := [linkedPage, markedPage] } : MigrationInput).project =
      [linkedPage] ++ markedPage :: [] := rfl
  refine (others_unchanged_iff (by decide) hproject).mpr ?_ linkedPage (by simp)
  intro _ _ between other rest hafter
  simp at hafter

/-- A page behind one on which the replacement fails keeps its link, which it does not keep without that
one. -/
theorem link_kept_behind_markedPage :
    (run { project := [markedPage, linkedPage] }).1.modifiedContent? "b.jsx" = none ∧
    (run { project := [linkedPage] }).1.modifiedContent? "b.jsx" =
      some "import \x7b Link \x7d from 'react-router-dom';\n<Link />;\n" := by
  decide +kernel

end Migration

end SpaMigration
