import Mathlib.Data.List.Induction
import Mathlib.Data.List.Nodup
import SpaMigration.Proofs.FaultIsolation

/-!
# Replacing components file by file

The replacement of components goes through the files with one list of outputs, which it changes in place and
adds to. What it makes of a file depends on the text of that file alone: the components have their turns one
after another, each in the text that the ones before have left, and the imports are inserted at the end. When
no turn fails, the outputs are the old ones, each with what became of its file, followed by the outputs of
files that had none, in the order of the project.
-/
namespace SpaMigration

/-- The turn of a component in a text: where it is in use it is replaced, elsewhere the text stays. -/
def LegacyComponent.replaceUsed? (component : LegacyComponent) (options : ReplacementOptions)
    (text : List Char) : Option ReplacedText :=
  if (ComponentUsage.ofText component text).used then component.replace? options text
  else some (.unchanged text)

/-- A turn that changed the text. -/
structure EffectiveTurn where
  component : LegacyComponent
  /-- How often the component was used in the text before. -/
  count : Nat
  result : ReplacedText
  deriving DecidableEq, Repr

namespace EffectiveTurn

/-- The line about the turn among the changes of a file. -/
def change (turn : EffectiveTurn) : String :=
  "Replaced " ++ turn.component.tag ++ " component (" ++ toString turn.count ++ " usages)"

/-- The replacement that is counted for a file. -/
def replacement (path : String) (turn : EffectiveTurn) : ComponentReplacement :=
  ⟨path, turn.component, turn.count⟩

/-- The warnings of the turn as records about a file. -/
def records (path : String) (turn : EffectiveTurn) : List Diagnostic :=
  turn.result.warnings.map (Diagnostic.warningIn path "COMPONENT_TRANSFORM_WARNING" ·)

/-- The turns of several components that change a text, in their order. -/
def all (options : ReplacementOptions) : List LegacyComponent → List Char → List EffectiveTurn
  | [], _ => []
  | component :: rest, text =>
    match component.replaceUsed? options text with
    | none => []
    | some result =>
      let count := (ComponentUsage.ofText component text).count
      (if result.code = text then [] else [⟨component, count, result⟩]) ++ all options rest result.code

end EffectiveTurn

/-- The text after the turns of several components; `none` when one of them fails. -/
def textAfterTurns? (options : ReplacementOptions) (components : List LegacyComponent) (text : List Char) :
    Option (List Char) :=
  components.foldlM (fun text component => (component.replaceUsed? options text).map (·.code)) text

lemma textAfterTurns?_cons (options : ReplacementOptions) (component : LegacyComponent)
    (rest : List LegacyComponent) (text : List Char) :
    textAfterTurns? options (component :: rest) text =
      (component.replaceUsed? options text).bind fun result => textAfterTurns? options rest result.code := by
  rw [textAfterTurns?, List.foldlM_cons, Option.bind_eq_bind, Option.bind_map]
  rfl

namespace FileReplacement

variable {options : ReplacementOptions}

/-- A file with another text after turns that changed it. -/
def after (state : FileReplacement) (path : String) (code : List Char) (turns : List EffectiveTurn) :
    FileReplacement where
  code
  imports := state.imports ++ turns.flatMap (·.result.imports)
  changes := state.changes ++ turns.map (·.change)
  replacements := state.replacements ++ turns.map (·.replacement path)
  records := state.records ++ turns.flatMap (·.records path)

lemma replace_cons_of_replaceUsed? (path : String) {component : LegacyComponent}
    {rest : List LegacyComponent} {state : FileReplacement} {result : ReplacedText}
    (h : component.replaceUsed? options state.code = some result) :
    replace options path (component :: rest) state = replace options path rest
      (if result.code = state.code then state
       else state.record path component (ComponentUsage.ofText component state.code).count result) := by
  unfold LegacyComponent.replaceUsed? at h
  simp only [replace]
  split_ifs at h ⊢ with hused hsame hsame
  · simp [h, hsame]
  · simp [h, hsame]
  · rfl
  · cases h
    exact absurd rfl hsame

/-- Where no turn fails, the components of a file are replaced turn by turn. -/
theorem replace_of_textAfterTurns? (path : String) {components : List LegacyComponent}
    (state : FileReplacement) {code : List Char}
    (h : textAfterTurns? options components state.code = some code) :
    replace options path components state =
      (state.after path code (EffectiveTurn.all options components state.code), true) := by
  induction components generalizing state with
  | nil =>
    cases h
    simp [replace, after, EffectiveTurn.all]
  | cons component rest ih =>
    rw [textAfterTurns?_cons] at h
    obtain ⟨result, hresult, hrest⟩ := Option.bind_eq_some_iff.mp h
    rw [replace_cons_of_replaceUsed? path hresult]
    simp only [EffectiveTurn.all, hresult]
    split_ifs with hsame
    · rw [hsame] at hrest ⊢
      exact ih state hrest
    · have hnext : textAfterTurns? options rest (state.record path component
          (ComponentUsage.ofText component state.code).count result).code = some code := hrest
      rw [ih _ hnext]
      simp [after, record, EffectiveTurn.change, EffectiveTurn.replacement, EffectiveTurn.records]

/-- The replacement in a file goes to the end exactly when no turn fails. -/
lemma completed_replace_iff (path : String) {components : List LegacyComponent} (state : FileReplacement) :
    (replace options path components state).2 = true ↔
      (textAfterTurns? options components state.code).isSome := by
  induction components generalizing state with
  | nil => simp [replace, textAfterTurns?]
  | cons component rest ih =>
    rw [textAfterTurns?_cons]
    cases hturn : component.replaceUsed? options state.code with
    | none =>
      unfold LegacyComponent.replaceUsed? at hturn
      split_ifs at hturn with hused
      simp [replace, hused, hturn]
    | some result =>
      rw [replace_cons_of_replaceUsed? path hturn, Option.bind_some, ih]
      split_ifs with hsame
      · rw [hsame]
      · rfl

end FileReplacement

namespace ReplaceStage

variable {options : ReplacementOptions} {old : List ModifiedFile} {project : Project} {file : ProjectFile}

/-- The text that a file starts from, its old output if it has one, or why it cannot be read; `none` for a
file that is left alone or has no markup. -/
@[irreducible]
def start? (old : List ModifiedFile) (file : ProjectFile) : Option (Except ReadError String) :=
  if ProjectPath.isSkipped file.path || !ProjectPath.isMarkup file.path then none
  else some (currentText old file)

/-- The turns that change the text of a file. -/
def turnsIn (options : ReplacementOptions) (old : List ModifiedFile) (file : ProjectFile) :
    List EffectiveTurn :=
  match start? old file with
  | some (.ok text) => EffectiveTurn.all options LegacyComponent.all text.toList
  | _ => []

/-- The new text of a file: where the turns of all components end in another text than the first one, that
text with the imports of the turns that changed it. -/
def newText? (options : ReplacementOptions) (old : List ModifiedFile) (file : ProjectFile) :
    Option String :=
  match start? old file with
  | some (.ok text) =>
    (textAfterTurns? options LegacyComponent.all text.toList).bind fun code =>
      let imports := (turnsIn options old file).flatMap (·.result.imports)
      if code = text.toList then none else some (String.ofList (ImportBlock.insert code imports))
  | _ => none

/-- The output of a file with a new text: the changes are added to those of the old output. -/
def newOutput? (options : ReplacementOptions) (old : List ModifiedFile) (file : ProjectFile) :
    Option ModifiedFile :=
  (newText? options old file).map fun text =>
    updated file.path text ((turnsIn options old file).map (·.change)) (outputOf old file.path)

/-- The records about a file: the warnings of its turns, or the one that it cannot be read. -/
def recordsOf (options : ReplacementOptions) (old : List ModifiedFile) (file : ProjectFile) :
    List Diagnostic :=
  match start? old file with
  | some (.error e) =>
    [.warningIn file.path "FILE_TRANSFORM_ERROR" ("Failed to read file: " ++ e.message)]
  | _ => (turnsIn options old file).flatMap (·.records file.path)

/-- What becomes of an old output: the new one of its file, if there is one; otherwise it stays. -/
def outputAfter (options : ReplacementOptions) (project : Project) (old : List ModifiedFile)
    (output : ModifiedFile) : ModifiedFile :=
  ((project.get? output.path).bind (newOutput? options old)).getD output

/-- The outputs of files that had none, in the order of the files. -/
def added (options : ReplacementOptions) (project : Project) (old : List ModifiedFile) : List ModifiedFile :=
  project.filterMap fun file => if (outputOf old file.path).isNone then newOutput? options old file else none

/-- The stage when every file is taken by itself: the outputs are the old ones in their order, each with what
becomes of it, then the new ones of files that had none. -/
def fileByFile (options : ReplacementOptions) (project : Project) (old : List ModifiedFile) :
    ReplaceStage where
  outputs := old.map (outputAfter options project old) ++ added options project old
  replacements := project.flatMap fun file => (turnsIn options old file).map (·.replacement file.path)
  records := project.flatMap (recordsOf options old)

/-- No turn of a component fails in a file. -/
def Succeeds (options : ReplacementOptions) (old : List ModifiedFile) (file : ProjectFile) : Prop :=
  ∀ text, start? old file = some (.ok text) →
    (textAfterTurns? options LegacyComponent.all text.toList).isSome

lemma replacedOutput_completed_iff :
    (replacedOutput options file (outputOf old file.path)).2 = true ↔ Succeeds options old file := by
  simp only [replacedOutput, Succeeds, start?, currentText_outputOf]
  split_ifs with hsource
  · simp
  · cases hread : currentText old file with
    | error e => simp
    | ok text =>
      have hreplace : (FileReplacement.replace options file.path LegacyComponent.all
          { code := text.toList }).2 = true ↔
            (textAfterTurns? options LegacyComponent.all text.toList).isSome :=
        FileReplacement.completed_replace_iff file.path _
      simp only [Option.some.injEq, Except.ok.injEq, forall_eq']
      rw [← hreplace]
      split_ifs with hfailed
      · simpa using hfailed
      · simpa using hfailed
      · simpa using hfailed

/-- The stage with what the turns of a file add to it. -/
lemma step_of_succeeds {stage : ReplaceStage} (hcompleted : stage.completed = true)
    (htext : currentText stage.outputs file = currentText old file) (hfile : Succeeds options old file) :
    step options stage file =
      { outputs := (newText? options old file).elim stage.outputs fun text =>
          putOutput file.path text ((turnsIn options old file).map (·.change)) stage.outputs
        replacements := stage.replacements ++ (turnsIn options old file).map (·.replacement file.path)
        records := stage.records ++ recordsOf options old file } := by
  by_cases hsource : ProjectPath.isSkipped file.path || !ProjectPath.isMarkup file.path
  · have hstart : start? old file = none := by rw [start?, if_pos hsource]
    simp only [step, hcompleted, Bool.not_true, Bool.false_or, hsource, if_true, newText?, turnsIn, recordsOf,
      hstart, Option.elim_none, List.map_nil, List.flatMap_nil, List.append_nil]
    rw [← hcompleted]
  · have hstart : start? old file = some (currentText old file) := by rw [start?, if_neg hsource]
    cases hread : currentText old file with
    | error e =>
      rw [hread] at hstart
      have hstep : step options stage file =
          { stage with records := stage.records ++ recordsOf options old file } := by
        simp only [step, hcompleted, Bool.not_true, Bool.false_or, hsource, htext, hread, recordsOf, hstart]
        rfl
      simp only [hstep, newText?, turnsIn, hstart, Option.elim_none, List.map_nil, List.append_nil,
        ← hcompleted]
    | ok text =>
      rw [hread] at hstart
      have hstep : step options stage file = replaceIn options file text stage := by
        simp only [step, hcompleted, Bool.not_true, Bool.false_or, hsource, htext, hread]
        rfl
      rw [hstep]
      obtain ⟨code, hcode⟩ := Option.isSome_iff_exists.mp (hfile text hstart)
      have hreplace := FileReplacement.replace_of_textAfterTurns? file.path { code := text.toList } hcode
      simp only [replaceIn, hreplace, newText?, turnsIn, recordsOf, hstart, hcode,
        FileReplacement.after, List.nil_append, Bool.not_true, Bool.false_eq_true, if_false,
        Option.bind_some, beq_iff_eq, hcompleted]
      split_ifs <;> rfl

lemma putOutput_of_notMem {path : String} {outputs : List ModifiedFile} (h : path ∉ outputs.map (·.path))
    (content : String) (changes : List String) :
    putOutput path content changes outputs = outputs ++ [⟨path, content, changes⟩] := by
  induction outputs with
  | nil => rfl
  | cons output rest ih =>
    rw [List.map_cons, List.mem_cons, not_or] at h
    rw [putOutput, if_neg (by simpa using Ne.symm h.1), ih h.2, List.cons_append]

lemma putOutput_append {path : String} {outputs : List ModifiedFile} (h : path ∈ outputs.map (·.path))
    (more : List ModifiedFile) (content : String) (changes : List String) :
    putOutput path content changes (outputs ++ more) = putOutput path content changes outputs ++ more := by
  induction outputs with
  | nil => simp at h
  | cons output rest ih =>
    rw [List.cons_append, putOutput, putOutput]
    split_ifs with hpath
    · rfl
    · rw [ih (by simpa [Ne.symm (show output.path ≠ path by simpa using hpath)] using h), List.cons_append]

/-- Where no two outputs have the same path, exactly the one of the path changes. -/
lemma putOutput_eq_map {path : String} {outputs : List ModifiedFile}
    (hdistinct : (outputs.map (·.path)).Nodup) (h : path ∈ outputs.map (·.path)) (content : String)
    (changes : List String) :
    putOutput path content changes outputs = outputs.map fun output =>
      if output.path = path then { output with content, changes := output.changes ++ changes }
      else output := by
  induction outputs with
  | nil => simp at h
  | cons output rest ih =>
    rw [List.map_cons, List.nodup_cons] at hdistinct
    rw [putOutput, List.map_cons]
    split_ifs with hpath hpath' hpath'
    · have hothers : ∀ other ∈ rest, other.path ≠ path := fun other ho hsame =>
        hdistinct.1 (beq_iff_eq.mp hpath ▸ hsame ▸ List.mem_map_of_mem ho)
      rw [List.map_congr_left fun other ho => if_neg (hothers other ho), List.map_id']
    · exact absurd (beq_iff_eq.mp hpath) hpath'
    · exact absurd (beq_iff_eq.mpr hpath') hpath
    · rw [ih hdistinct.2 (by simpa [Ne.symm hpath'] using h)]

lemma outputOf_eq_none_iff {outputs : List ModifiedFile} {path : String} :
    outputOf outputs path = none ↔ path ∉ outputs.map (·.path) := by
  simp

lemma path_updated (path content : String) (changes : List String) {output : Option ModifiedFile}
    (h : ∀ o ∈ output, o.path = path) : (updated path content changes output).path = path := by
  cases output with
  | none => rfl
  | some o => exact h o rfl

lemma path_newOutput? {output : ModifiedFile} (h : newOutput? options old file = some output) :
    output.path = file.path := by
  obtain ⟨text, -, rfl⟩ := Option.map_eq_some_iff.mp h
  exact path_updated _ _ _ fun o ho => by simpa using List.find?_some ho

lemma path_outputAfter (options : ReplacementOptions) (project : Project) (old : List ModifiedFile)
    (output : ModifiedFile) : (outputAfter options project old output).path = output.path := by
  unfold outputAfter
  cases hfile : project.get? output.path with
  | none => rfl
  | some file =>
    cases hnewOutput : newOutput? options old file with
    | none => rw [Option.bind_some, hnewOutput, Option.getD_none]
    | some new =>
      rw [Option.bind_some, hnewOutput, Option.getD_some, path_newOutput? hnewOutput]
      simpa using List.find?_some hfile

lemma get?_eq_none_of_notMem {path : String} (h : path ∉ project.paths) : project.get? path = none :=
  List.find?_eq_none.mpr fun _ ho hsame => h (beq_iff_eq.mp hsame ▸ List.mem_map_of_mem ho)

/-- One more file makes a difference to its own output only. -/
lemma outputAfter_concat (hfile : file.path ∉ project.paths) (output : ModifiedFile) :
    outputAfter options (project ++ [file]) old output =
      if output.path = file.path then (newOutput? options old file).getD output
      else outputAfter options project old output := by
  unfold outputAfter
  rw [Project.get?, List.find?_append]
  split_ifs with hpath
  · have hnone : project.find? (·.path == file.path) = none := get?_eq_none_of_notMem hfile
    simp [hpath, hnone]
  · have hother : (file.path == output.path) = false := by simpa using Ne.symm hpath
    simp [hother, Project.get?]

lemma outputAfter_of_notMem {output : ModifiedFile} (h : output.path ∉ project.paths) :
    outputAfter options project old output = output := by
  rw [outputAfter, get?_eq_none_of_notMem h, Option.bind_none, Option.getD_none]

lemma outputOf_of_mem {outputs : List ModifiedFile} (hdistinct : (outputs.map (·.path)).Nodup)
    {output : ModifiedFile} (h : output ∈ outputs) : outputOf outputs output.path = some output := by
  cases hfound : outputOf outputs output.path with
  | none => exact absurd (List.mem_map_of_mem h) (outputOf_eq_none_iff.mp hfound)
  | some found =>
    have hpath : found.path = output.path := by simpa using List.find?_some hfound
    rw [List.inj_on_of_nodup_map hdistinct (List.mem_of_find?_eq_some hfound) h hpath]

lemma newOutput?_of_newText? {text : String} (h : newText? options old file = some text) :
    newOutput? options old file = some
      (updated file.path text ((turnsIn options old file).map (·.change)) (outputOf old file.path)) := by
  rw [newOutput?, h, Option.map_some]

/-- An old output stays as the files before have left it, unless it is the one of a file with a new text. -/
lemma outputAfter_concat_of_unchanged (hfile : file.path ∉ project.paths) {output : ModifiedFile}
    (h : output.path = file.path → newOutput? options old file = none) :
    outputAfter options (project ++ [file]) old output = outputAfter options project old output := by
  rw [outputAfter_concat hfile]
  split_ifs with hpath
  · rw [h hpath, outputAfter_of_notMem (hpath ▸ hfile), Option.getD_none]
  · rfl

lemma added_concat : added options (project ++ [file]) old = added options project old ++
    (if (outputOf old file.path).isNone then newOutput? options old file else none).toList := by
  rw [added, List.filterMap_append, List.filterMap_cons, List.filterMap_nil, ← added]
  split <;> simp_all

/-- The new text of a file with an old output takes the place of that output. -/
lemma putOutput_fileByFile_of_mem (hold : (old.map (·.path)).Nodup) (hfile : file.path ∉ project.paths)
    (hmem : file.path ∈ old.map (·.path)) {text : String} (hnew : newText? options old file = some text) :
    putOutput file.path text ((turnsIn options old file).map (·.change))
      (fileByFile options project old).outputs = (fileByFile options (project ++ [file]) old).outputs := by
  have hpaths : (old.map (outputAfter options project old)).map (·.path) = old.map (·.path) := by
    rw [List.map_map]
    exact List.map_congr_left fun output _ => path_outputAfter options project old output
  have hadded : added options (project ++ [file]) old = added options project old := by
    have hsome : ¬(outputOf old file.path).isNone := by
      rw [Option.isNone_iff_eq_none, outputOf_eq_none_iff]
      exact not_not_intro hmem
    rw [added_concat, if_neg hsome, Option.toList_none, List.append_nil]
  simp only [fileByFile, hadded]
  rw [putOutput_append (hpaths ▸ hmem), putOutput_eq_map (hpaths ▸ hold) (hpaths ▸ hmem), List.map_map]
  congr 1
  refine List.map_congr_left fun output ho => ?_
  rw [Function.comp_apply, path_outputAfter, outputAfter_concat hfile]
  split_ifs with hpath
  · rw [outputAfter_of_notMem (hpath ▸ hfile), newOutput?_of_newText? hnew, Option.getD_some, ← hpath,
      outputOf_of_mem hold ho, updated]
  · rfl

/-- The new text of a file without an old output is added behind all others. -/
lemma putOutput_fileByFile_of_notMem (hfile : file.path ∉ project.paths)
    (hmem : file.path ∉ old.map (·.path)) {text : String} (hnew : newText? options old file = some text)
    (hsame : outputOf (fileByFile options project old).outputs file.path = outputOf old file.path) :
    putOutput file.path text ((turnsIn options old file).map (·.change))
      (fileByFile options project old).outputs = (fileByFile options (project ++ [file]) old).outputs := by
  have hnone : outputOf old file.path = none := outputOf_eq_none_iff.mpr hmem
  have hold : old.map (outputAfter options (project ++ [file]) old) =
      old.map (outputAfter options project old) :=
    List.map_congr_left fun output ho => outputAfter_concat_of_unchanged hfile fun hpath =>
      absurd (List.mem_map.mpr ⟨output, ho, hpath⟩) hmem
  rw [putOutput_of_notMem (outputOf_eq_none_iff.mp (hsame.trans hnone))]
  simp [fileByFile, hold, added_concat, newOutput?_of_newText? hnew, hnone, updated]

/-- The outputs of the files before, changed for one more file, are those of all of them. -/
lemma outputs_fileByFile_concat (hold : (old.map (·.path)).Nodup) (hfile : file.path ∉ project.paths)
    (hsame : outputOf (fileByFile options project old).outputs file.path = outputOf old file.path) :
    (newText? options old file).elim (fileByFile options project old).outputs (fun text =>
      putOutput file.path text ((turnsIn options old file).map (·.change))
        (fileByFile options project old).outputs) =
    (fileByFile options (project ++ [file]) old).outputs := by
  cases hnew : newText? options old file with
  | none =>
    have hnewOutput : newOutput? options old file = none := by rw [newOutput?, hnew, Option.map_none]
    have hsame' : old.map (outputAfter options (project ++ [file]) old) =
        old.map (outputAfter options project old) :=
      List.map_congr_left fun output _ => outputAfter_concat_of_unchanged hfile fun _ => hnewOutput
    simp [fileByFile, hsame', added_concat, hnewOutput]
  | some text =>
    by_cases hmem : file.path ∈ old.map (·.path)
    · exact putOutput_fileByFile_of_mem hold hfile hmem hnew
    · exact putOutput_fileByFile_of_notMem hfile hmem hnew hsame

/-- Where no turn fails, going through the files in one stage comes to taking each file by itself. -/
lemma run_eq_fileByFile (hold : (old.map (·.path)).Nodup) (hdistinct : project.paths.Nodup)
    (hsucceeds : ∀ file ∈ project, Succeeds options old file) :
    run options project old = fileByFile options project old := by
  -- From the end, as the last step of the stage is the one of the last file.
  induction project using List.reverseRecOn with
  | nil =>
    have hsame : old.map (outputAfter options [] old) = old := List.map_id' old
    simp [run, fileByFile, added, hsame]
  | append_singleton rest file ih =>
    rw [Project.paths, List.map_append, List.nodup_append] at hdistinct
    obtain ⟨hrest, -, hapart⟩ := hdistinct
    have hfile : file.path ∉ Project.paths rest := fun hmem =>
      hapart file.path hmem file.path (List.mem_singleton_self _) rfl
    have hothers : ∀ other ∈ rest, file.path ≠ other.path := fun other ho hsame =>
      hfile (List.mem_map.mpr ⟨other, ho, hsame.symm⟩)
    have hrun := ih hrest fun other ho => hsucceeds other (List.mem_append_left _ ho)
    -- The files before have left the output of this one as it was.
    have houtput : outputOf (run options rest old).outputs file.path = outputOf old file.path :=
      outputOf_foldl_step hothers { outputs := old }
    have htext : currentText (run options rest old).outputs file = currentText old file := by
      rw [← currentText_outputOf, houtput, currentText_outputOf]
    rw [hrun] at houtput htext
    rw [run, List.foldl_append, List.foldl_cons, List.foldl_nil, ← run, hrun,
      step_of_succeeds rfl htext (hsucceeds file (by simp)), outputs_fileByFile_concat hold hfile houtput]
    simp [fileByFile]

/-- The replacement goes to the end exactly when no turn fails in any file. -/
lemma completed_run_iff (hdistinct : project.paths.Nodup) :
    (run options project old).completed = true ↔ ∀ file ∈ project, Succeeds options old file := by
  rw [run, completed_foldl_step hdistinct rfl]
  exact forall₂_congr fun file _ => replacedOutput_completed_iff

/-- The outputs of the rules have the paths of files, each path once. -/
lemma paths_nodup_of_transform (t : Transformer) (hdistinct : project.paths.Nodup) :
    ((t.transform project).outputs.map (·.path)).Nodup := by
  have hpaths : (t.transform project).outputs.map (·.path) = (project.filter t.isListed).map (·.path) := by
    rw [(Transformer.transform_eq_oneByOne t project).1, Transformer.oneByOne_eq, List.map_map]
    exact Transformer.paths_modified t project
  rw [hpaths]
  exact hdistinct.sublist (List.filter_sublist.map _)

/-- The replacement of components is done file by file. On what the rules have made of a project without
repeated paths it goes to the end exactly when no turn fails in a file. Then it yields the old outputs in
their order, each of them with the new text of its file, if that has one, and with one more change for each
turn that changed the text; after them the outputs of files that had none, in the order of the files. The
replacements and the records are those of the turns, file by file, and a file that cannot be read leaves one
record. -/
theorem replaced_file_by_file (t : Transformer) (options : ReplacementOptions) {project : Project}
    (hdistinct : project.paths.Nodup) :
    let old := (t.transform project).outputs
    ((run options project old).completed = true ↔ ∀ file ∈ project, Succeeds options old file) ∧
    ((run options project old).completed = true →
      run options project old = fileByFile options project old) := by
  intro old
  have hcompleted : (run options project old).completed = true ↔
      ∀ file ∈ project, Succeeds options old file := completed_run_iff hdistinct
  exact ⟨hcompleted, fun h => run_eq_fileByFile (paths_nodup_of_transform t hdistinct) hdistinct
    (hcompleted.mp h)⟩

/-- Markup that only a component changes, a page that the rules change too, a style sheet and a page that
cannot be read. -/
def interleavedFiles : Project :=
  [⟨"components/Logo.jsx", .inMemory "import Image from 'next/image';\n<Image src=\"/a.png\" fill />;\n"⟩,
   ⟨"pages/a.tsx", .inMemory "import Link from 'next/link';\nrouter.back();\n<Link href=\"/b\">B</Link>;\n"⟩,
   ⟨"site.css", .inMemory "a \x7b\x7d"⟩,
   ⟨"pages/gone.tsx", .onDisk "disk/pages/gone.tsx" none⟩]

theorem replaced_file_by_file_interleaved :
    let old := (({ rules := RuleSet.builtin : Transformer }).transform interleavedFiles).outputs
    interleavedFiles.paths.Nodup ∧ (run {} interleavedFiles old).completed = true ∧
    (run {} interleavedFiles old).outputs =
      [⟨"pages/a.tsx",
          "import \x7b Link \x7d from 'react-router-dom';\nnavigate(-1);\n<Link to=\"/b\">B</Link>;\n",
          ["Converted router.back() to navigate(-1)", "Replaced link component (1 usages)"]⟩,
        ⟨"components/Logo.jsx",
          "import \x7b Image \x7d from '@unpic/react';\n<Image src=\"/a.png\" layout=\"fullWidth\" />;\n",
          ["Replaced image component (1 usages)"]⟩] ∧
    (run {} interleavedFiles old).replacements =
      [⟨"components/Logo.jsx", .image, 1⟩, ⟨"pages/a.tsx", .link, 1⟩] ∧
    (run {} interleavedFiles old).records.map (·.file) =
      [some "components/Logo.jsx", some "pages/gone.tsx"] := by
  intro old
  have hdistinct : interleavedFiles.paths.Nodup := by decide
  have hcompleted : (run {} interleavedFiles old).completed = true := by decide +kernel
  have hrun := (replaced_file_by_file { rules := RuleSet.builtin } {} hdistinct).2 hcompleted
  refine ⟨hdistinct, hcompleted, ?_⟩
  rw [hrun]
  decide +kernel

end ReplaceStage

end SpaMigration
