import Mathlib.Logic.Relation
import Mathlib.Tactic.Common
import SpaMigration.Migration.Transform
import SpaMigration.Rule.Builtin

/-!
# Batches and the order in which their files finish

The files of a batch are worked on at the same time, each by a worker of its own, and the results are taken
over in the order of the files once all workers have finished. A run of the batches is given here step by
step: at each step some worker that is still at work finishes. However the workers of the batches finish, and
whatever the size of the batches is, the outcome is the one of the files taken one by one.
-/
namespace SpaMigration

namespace Transformer

/-- What the worker of a file returns. -/
abbrev WorkerResult := Except FileError (Option TransformedFile)

/-- The workers of a batch in the order of its files: what each one has returned, once it has finished. -/
abbrev Workers := List (Option WorkerResult)

/-- Some worker of a batch that is still at work finishes. -/
inductive WorkerStep (t : Transformer) (batch : List ProjectFile) : Workers → Workers → Prop
  | finish {workers : Workers} {i : Nat} {file : ProjectFile} (hfile : batch[i]? = some file)
      (hworking : workers[i]? = some none) :
      WorkerStep t batch workers (workers.set i (some (t.transformFile file)))

/-- All workers of a batch finish, in one order or another, with the given results. -/
def FinishesWith (t : Transformer) (batch : List ProjectFile) (results : List WorkerResult) : Prop :=
  Relation.ReflTransGen (WorkerStep t batch) (batch.map fun _ => none) (results.map some)

variable {t : Transformer} {batch : List ProjectFile}

/-- Each worker stands in the place of its file and has returned what becomes of that file. -/
structure InPlace (t : Transformer) (batch : List ProjectFile) (workers : Workers) : Prop where
  length_eq : workers.length = batch.length
  returned : ∀ {i : Nat} {file : ProjectFile} {result : WorkerResult}, batch[i]? = some file →
    workers[i]? = some (some result) → result = t.transformFile file

lemma InPlace.step {before after : Workers} (h : InPlace t batch before)
    (hstep : WorkerStep t batch before after) : InPlace t batch after := by
  cases hstep with
  | @finish i file hfile hworking =>
    refine ⟨by rw [List.length_set, h.length_eq], fun {j other result} hother hresult => ?_⟩
    by_cases hij : i = j
    · subst hij
      obtain ⟨hi, _⟩ := List.getElem?_eq_some_iff.mp hworking
      rw [List.getElem?_set_self hi] at hresult
      rw [hfile] at hother
      cases hother
      cases hresult
      rfl
    · rw [List.getElem?_set_ne hij] at hresult
      exact h.returned hother hresult

lemma InPlace.of_steps {workers : Workers}
    (h : Relation.ReflTransGen (WorkerStep t batch) (batch.map fun _ => none) workers) :
    InPlace t batch workers := by
  induction h with
  | refl =>
    refine ⟨List.length_map _, fun {i file result} _ hresult => ?_⟩
    -- No worker has returned anything yet.
    rw [List.getElem?_map] at hresult
    obtain ⟨_, _, hnone⟩ := Option.map_eq_some_iff.mp hresult
    cases hnone
  | tail _ hstep ih => exact ih.step hstep

/-- The workers of a batch can all finish, say in the order of their files. -/
lemma steps_in_order (t : Transformer) (done rest : List ProjectFile) :
    Relation.ReflTransGen (WorkerStep t (done ++ rest))
      (done.map (fun file => some (t.transformFile file)) ++ rest.map fun _ => none)
      ((done ++ rest).map fun file => some (t.transformFile file)) := by
  induction rest generalizing done with
  | nil => simp [Relation.ReflTransGen.refl]
  | cons file rest ih =>
    have hfile : (done ++ file :: rest)[done.length]? = some file := by simp
    have hstep : WorkerStep t (done ++ file :: rest)
        (done.map (fun file => some (t.transformFile file)) ++ (file :: rest).map fun _ => none)
        ((done.map (fun file => some (t.transformFile file)) ++ (file :: rest).map fun _ => none).set
          done.length (some (t.transformFile file))) := .finish hfile (by simp)
    have hnext := ih (done ++ [file])
    simp only [List.append_assoc, List.singleton_append] at hnext
    refine Relation.ReflTransGen.head hstep ?_
    simpa using hnext

/-- In whatever order the workers finish, their results are those of the files one by one. -/
theorem finishesWith_iff {results : List WorkerResult} :
    FinishesWith t batch results ↔ results = batch.map t.transformFile := by
  constructor
  · intro h
    have hplace := InPlace.of_steps h
    refine List.ext_getElem? fun i => ?_
    cases hfile : batch[i]? with
    | none =>
      have hlength := hplace.length_eq
      rw [List.length_map] at hlength
      have hi := List.getElem?_eq_none_iff.mp hfile
      rw [List.getElem?_map, hfile, List.getElem?_eq_none (by omega)]
      rfl
    | some file =>
      obtain ⟨hi, _⟩ := List.getElem?_eq_some_iff.mp hfile
      have hlength := hplace.length_eq
      rw [List.length_map] at hlength
      obtain ⟨result, hresult⟩ : ∃ result, results[i]? = some result :=
        ⟨_, List.getElem?_eq_getElem (by omega)⟩
      have hreturned := hplace.returned hfile (by rw [List.getElem?_map, hresult]; rfl)
      rw [List.getElem?_map, hfile, hresult, hreturned]
      rfl
  · rintro rfl
    have hsteps := steps_in_order t [] batch
    simpa [FinishesWith, Function.comp_def] using hsteps

/-- What is taken over of the result of a file's worker. -/
def outcomeOf (file : ProjectFile) : WorkerResult → BatchOutcome
  | .ok (some transformed) => ⟨if transformed.isModified then [transformed] else [], []⟩
  | .ok none => ⟨[], []⟩
  | .error e =>
    ⟨[], [.warningIn file.path "FILE_TRANSFORM_ERROR" ("Failed to transform file: " ++ e.message)]⟩

/-- What is taken over of the results of a batch, which are matched with its files by their places. -/
def collect (batch : List ProjectFile) (results : List WorkerResult) : BatchOutcome :=
  let outcomes := (results.zip batch).map fun (result, file) => outcomeOf file result
  ⟨outcomes.flatMap (·.modified), outcomes.flatMap (·.records)⟩

lemma fileOutcome_eq (t : Transformer) (file : ProjectFile) :
    t.fileOutcome file = outcomeOf file (t.transformFile file) := rfl

lemma collect_map (t : Transformer) (batch : List ProjectFile) :
    collect batch (batch.map t.transformFile) = t.batchOutcome batch := by
  have hzip : ((batch.map t.transformFile).zip batch).map (fun (result, file) => outcomeOf file result) =
      batch.map t.fileOutcome := by
    induction batch with
    | nil => rfl
    | cons file rest ih =>
      rw [List.map_cons, List.zip_cons_cons, List.map_cons, ih, List.map_cons, fileOutcome_eq]
  simp only [collect, hzip, batchOutcome]

end Transformer

namespace TransformSummary

/-- The summary with what a batch adds to it, where batches have a given size. -/
def add (summary : TransformSummary) (size : Nat) (batch : List ProjectFile)
    (outcome : Transformer.BatchOutcome) : TransformSummary :=
  { summary with
    outputs := summary.outputs ++ outcome.modified.map (·.output)
    details := summary.details ++ outcome.modified.map (·.detail)
    progress := summary.progress ++
      [(min (summary.progress.length * size + batch.length) summary.totalFiles, summary.totalFiles)]
    records := summary.records ++ outcome.records }

/-- The summary of a project before its first batch. -/
def start (project : Project) : TransformSummary where
  outputs := []
  details := []
  progress := []
  records := []
  totalFiles := project.length

end TransformSummary

namespace Transformer

/-- The batches are run one after another: the workers of each one finish in some order, and what they
return is added to the summary before the next one starts. -/
inductive Executes (t : Transformer) : List (List ProjectFile) → TransformSummary → TransformSummary → Prop
  | done (summary : TransformSummary) : Executes t [] summary summary
  | batch {batch : List ProjectFile} {rest : List (List ProjectFile)} {results : List WorkerResult}
      {summary final : TransformSummary} (hresults : FinishesWith t batch results)
      (hrest : Executes t rest (summary.add (max t.batchSize 1) batch (collect batch results)) final) :
      Executes t (batch :: rest) summary final

/-- A run of a transformer on a project ends in a summary. -/
def Yields (t : Transformer) (project : Project) (summary : TransformSummary) : Prop :=
  Executes t (batches t.batchSize project.length project) (.start project) summary

/-- The summary after one more batch, whose files are taken in their order. -/
def addBatch (t : Transformer) (summary : TransformSummary) (batch : List ProjectFile) : TransformSummary :=
  summary.add (max t.batchSize 1) batch (t.batchOutcome batch)

lemma executes_iff {t : Transformer} {rest : List (List ProjectFile)} {summary final : TransformSummary} :
    Executes t rest summary final ↔ final = rest.foldl t.addBatch summary := by
  induction rest generalizing summary with
  | nil =>
    constructor
    · rintro ⟨⟩
      rfl
    · rintro rfl
      exact .done _
  | cons batch rest ih =>
    rw [List.foldl_cons, ← ih]
    constructor
    · intro h
      cases h with
      | batch hresults hrest =>
        rwa [finishesWith_iff.mp hresults, collect_map] at hrest
    · intro h
      exact .batch (finishesWith_iff.mpr rfl) (by rwa [collect_map])

variable {α : Type}

lemma flatten_batches {size fuel : Nat} {files : List α} (h : files.length ≤ fuel) :
    (batches size fuel files).flatten = files := by
  fun_induction batches size fuel files with
  | case1 files =>
    rw [List.length_eq_zero_iff.mp (Nat.le_zero.mp h)]
    rfl
  | case2 => rfl
  | case3 fuel file rest ih =>
    have hrest : (rest.drop (size - 1)).length ≤ fuel := by
      rw [List.length_drop]
      simp only [List.length_cons] at h
      omega
    rw [List.flatten_cons, ih hrest, List.cons_append, List.take_append_drop]

lemma ne_nil_of_mem_batches {size fuel : Nat} {files batch : List α}
    (h : batch ∈ batches size fuel files) : batch ≠ [] := by
  fun_induction batches size fuel files with
  | case1 => simp at h
  | case2 => simp at h
  | case3 fuel file rest ih =>
    rcases List.mem_cons.mp h with rfl | h
    · exact List.cons_ne_nil _ _
    · exact ih h

/-- Batches but the last are full, so that the count of finished files is a multiple of the size of batches
as long as there are more: both ways to count agree. -/
lemma progress_foldl_addBatch (t : Transformer) {fuel : Nat} (done : Nat) {files : List ProjectFile}
    (summary : TransformSummary) (hfuel : files.length ≤ fuel)
    (htotal : done + files.length = summary.totalFiles)
    (hfull : files ≠ [] → done = summary.progress.length * max t.batchSize 1) :
    ((batches t.batchSize fuel files).foldl t.addBatch summary).progress =
      summary.progress ++ doneAfter summary.totalFiles done (batches t.batchSize fuel files) := by
  induction fuel generalizing done files summary with
  | zero => simp [batches, doneAfter]
  | succ fuel ih =>
    cases files with
    | nil => simp [batches, doneAfter]
    | cons file rest =>
      have hdone := hfull (List.cons_ne_nil _ _)
      have hlength : (file :: rest.take (t.batchSize - 1)).length + (rest.drop (t.batchSize - 1)).length =
          (file :: rest).length := by
        simp only [List.length_cons, List.length_take, List.length_drop]
        omega
      have hcount : min (summary.progress.length * max t.batchSize 1 +
          (file :: rest.take (t.batchSize - 1)).length) summary.totalFiles =
          done + (file :: rest.take (t.batchSize - 1)).length := by omega
      have hmore : rest.drop (t.batchSize - 1) ≠ [] →
          done + (file :: rest.take (t.batchSize - 1)).length =
            (summary.progress.length + 1) * max t.batchSize 1 := by
        intro hne
        have hlong := List.length_pos_iff.mpr hne
        have hsize : (file :: rest.take (t.batchSize - 1)).length = max t.batchSize 1 := by
          simp only [List.length_cons, List.length_take, List.length_drop] at hlong ⊢
          omega
        rw [hsize, hdone, Nat.add_mul, Nat.one_mul]
      simp only [batches, List.foldl_cons, doneAfter]
      rw [ih (done + (file :: rest.take (t.batchSize - 1)).length)]
      · simp only [addBatch, TransformSummary.add, hcount, List.append_assoc, List.singleton_append]
      · simp only [List.length_cons] at hfuel
        rw [List.length_drop]
        omega
      · simp only [addBatch, TransformSummary.add]
        omega
      · simpa [addBatch, TransformSummary.add] using hmore

lemma foldl_addBatch_fields (t : Transformer) (rest : List (List ProjectFile)) (summary : TransformSummary) :
    let final := rest.foldl t.addBatch summary
    let modified := (rest.map t.batchOutcome).flatMap (·.modified)
    final.outputs = summary.outputs ++ modified.map (·.output) ∧
    final.details = summary.details ++ modified.map (·.detail) ∧
    final.records = summary.records ++ (rest.map t.batchOutcome).flatMap (·.records) ∧
    final.totalFiles = summary.totalFiles := by
  induction rest generalizing summary with
  | nil => simp
  | cons batch rest ih =>
    obtain ⟨houtputs, hdetails, hrecords, htotal⟩ := ih (t.addBatch summary batch)
    simp only [List.foldl_cons, houtputs, hdetails, hrecords, htotal]
    simp [addBatch, TransformSummary.add]

/-- The runs of a transformer all end in the same summary, whatever the order in which workers finish. -/
theorem yields_iff {t : Transformer} {project : Project} {summary : TransformSummary} :
    Yields t project summary ↔ summary = t.transform project := by
  have hprogress := progress_foldl_addBatch t 0 (.start project) (Nat.le_refl project.length)
    (Nat.zero_add _) fun _ => (Nat.zero_mul _).symm
  obtain ⟨houtputs, hdetails, hrecords, htotal⟩ := foldl_addBatch_fields t
    (batches t.batchSize project.length project) (.start project)
  rw [Yields, executes_iff]
  generalize (batches t.batchSize project.length project).foldl t.addBatch (.start project) = final at *
  have hfinal : final = t.transform project := by
    cases final
    simp only [TransformSummary.start, List.nil_append] at houtputs hdetails hrecords htotal hprogress
    rw [houtputs, hdetails, hrecords, htotal, hprogress]
    rfl
  rw [hfinal]

/-- The files one by one: what a file yields is taken over before the next one is looked at. -/
def oneByOne (t : Transformer) : List ProjectFile → BatchOutcome
  | [] => ⟨[], []⟩
  | file :: rest =>
    let first := t.fileOutcome file
    let later := oneByOne t rest
    ⟨first.modified ++ later.modified, first.records ++ later.records⟩

lemma oneByOne_eq (t : Transformer) (files : List ProjectFile) :
    oneByOne t files = ⟨files.flatMap fun file => (t.fileOutcome file).modified,
      files.flatMap fun file => (t.fileOutcome file).records⟩ := by
  induction files with
  | nil => rfl
  | cons file rest ih => simp only [oneByOne, ih, List.flatMap_cons]

lemma flatMap_batchOutcome {β : Type} (t : Transformer) (rest : List (List ProjectFile))
    (field : BatchOutcome → List β)
    (hfield : ∀ batch, field (t.batchOutcome batch) = batch.flatMap fun file => field (t.fileOutcome file)) :
    (rest.map t.batchOutcome).flatMap field = rest.flatten.flatMap fun file => field (t.fileOutcome file) := by
  induction rest with
  | nil => rfl
  | cons batch rest ih =>
    rw [List.map_cons, List.flatMap_cons, ih, hfield, List.flatten_cons, List.flatMap_append]

/-- Batches of any size yield what the files yield one by one. -/
lemma transform_eq_oneByOne (t : Transformer) (project : Project) :
    (t.transform project).outputs = (oneByOne t project).modified.map (·.output) ∧
    (t.transform project).details = (oneByOne t project).modified.map (·.detail) ∧
    (t.transform project).records = (oneByOne t project).records := by
  have hflatten : (batches t.batchSize project.length project).flatten = project :=
    flatten_batches (Nat.le_refl _)
  have hmodified := flatMap_batchOutcome t (batches t.batchSize project.length project)
    (·.modified) fun batch => by simp [batchOutcome, List.flatMap_map]
  have hrecords := flatMap_batchOutcome t (batches t.batchSize project.length project)
    (·.records) fun batch => by simp [batchOutcome, List.flatMap_map]
  rw [hflatten] at hmodified hrecords
  simp only [transform, hmodified, hrecords, oneByOne_eq, and_self]

end Transformer

/-- A list of rules that applies none of them leaves the text as it is. -/
lemma RuleSet.text_of_applied_eq {rules : RuleSet} {outcome : RuleOutcome}
    (h : (rules.foldl step outcome).applied.length = outcome.applied.length) :
    (rules.foldl step outcome).text = outcome.text := by
  have hgrows : ∀ (rules : RuleSet) (outcome : RuleOutcome),
      outcome.applied.length ≤ (rules.foldl step outcome).applied.length := by
    intro rules
    induction rules with
    | nil => exact fun _ => Nat.le_refl _
    | cons rule rest ih =>
      intro outcome
      refine Nat.le_trans ?_ (ih (step outcome rule))
      simp only [step]
      split_ifs <;> simp
  induction rules generalizing outcome with
  | nil => rfl
  | cons rule rest ih =>
    rw [List.foldl_cons] at h ⊢
    by_cases happlies : rule.appliesTo outcome.text
    · have hlater := hgrows rest (step outcome rule)
      have hstep : (step outcome rule).applied.length = outcome.applied.length + 1 := by
        simp [step, happlies]
      omega
    · have hstep : step outcome rule = outcome := by simp [step, happlies]
      rw [hstep] at h ⊢
      exact ih h

namespace Transformer

variable {α : Type}

lemma transformText_of_applied_nil {t : Transformer} {code : List Char}
    (h : (t.transformText code).applied = []) : (t.transformText code).text = code := by
  have hnone : (t.rules.applyAll code).applied = [] := by
    simp only [transformText] at h
    split_ifs at h
    · exact h
    · exact h
  have htext : (t.rules.applyAll code).text = code :=
    RuleSet.text_of_applied_eq (by rw [← RuleSet.applyAll, hnone])
  simp [transformText, hnone, htext]

/-- A source file that is not left alone, can be read and parsed, and gets another text by the rules. -/
def isListed (t : Transformer) (file : ProjectFile) : Bool :=
  (ProjectPath.sourceKind? file.path).isSome && !ProjectPath.isSkipped file.path &&
    match file.read with
    | .ok before => (Syntax.parse? (.ofPath file.path) before.toList).isSome &&
        String.ofList (t.transformText before.toList).text != before
    | .error _ => false

/-- Why a source file that is not left alone cannot be read or parsed, if it cannot. -/
def failure? (file : ProjectFile) : Option FileError :=
  if (ProjectPath.sourceKind? file.path).isSome && !ProjectPath.isSkipped file.path then
    match file.read with
    | .ok before =>
      if (Syntax.parse? (.ofPath file.path) before.toList).isSome then none else some (.notAProgram file.path)
    | .error cause => some (.unreadable cause)
  else none

/-- The record about a file that failed. -/
def failureRecord (file : ProjectFile) (e : FileError) : Diagnostic :=
  .warningIn file.path "FILE_TRANSFORM_ERROR" ("Failed to transform file: " ++ e.message)

/-- A file that is parsed counts as modified exactly when its text is another one: where no rule is applied
the text stays. -/
lemma isModified_eq (t : Transformer) (path before : String) :
    TransformedFile.isModified ⟨path, before, String.ofList (t.transformText before.toList).text,
      (t.transformText before.toList).applied⟩ =
        (String.ofList (t.transformText before.toList).text != before) := by
  simp only [TransformedFile.isModified]
  cases happlied : (t.transformText before.toList).applied with
  | nil =>
    rw [transformText_of_applied_nil happlied, String.ofList_toList]
    simp
  | cons first others => simp

lemma isNone_or_isSkipped (path : String) :
    ((ProjectPath.sourceKind? path).isNone || ProjectPath.isSkipped path) =
      !((ProjectPath.sourceKind? path).isSome && !ProjectPath.isSkipped path) := by
  rw [← Option.not_isSome, Bool.not_and, Bool.not_not]

/-- A source file that can be read and parsed is transformed to what becomes of its text. -/
lemma transformFile_of_read {t : Transformer} {file : ProjectFile} {before : String}
    (hsource : ((ProjectPath.sourceKind? file.path).isSome && !ProjectPath.isSkipped file.path) = true)
    (hread : file.read = .ok before) (hparse : (Syntax.parse? (.ofPath file.path) before.toList).isSome = true) :
    t.transformFile file = .ok (some ⟨file.path, before, String.ofList (t.transformText before.toList).text,
      (t.transformText before.toList).applied⟩) := by
  have hprogram : (Syntax.parse? (.ofPath file.path) before.toList).isNone = false := by
    rw [← Option.not_isSome, hparse, Bool.not_true]
  simp only [transformFile, isNone_or_isSkipped, hsource, hread, hprogram, Bool.not_true, Bool.false_eq_true,
    if_false]

/-- Such a file is modified when its text becomes another one. -/
lemma modified_of_read {t : Transformer} {file : ProjectFile} {before : String} {outcome : RuleOutcome}
    (hsource : ((ProjectPath.sourceKind? file.path).isSome && !ProjectPath.isSkipped file.path) = true)
    (hread : file.read = .ok before) (hparse : (Syntax.parse? (.ofPath file.path) before.toList).isSome = true)
    (houtcome : t.transformText before.toList = outcome) :
    (t.fileOutcome file).modified = if String.ofList outcome.text = before then []
      else [⟨file.path, before, String.ofList outcome.text, outcome.applied⟩] := by
  subst houtcome
  simp only [fileOutcome, transformFile_of_read hsource hread hparse, isModified_eq, bne_iff_ne, ne_eq, ite_not]

/-- What one file yields: itself under its path when it is listed, one record when it fails. -/
lemma fileOutcome_spec (t : Transformer) (file : ProjectFile) :
    (t.fileOutcome file).modified.map (·.path) = (if t.isListed file then [file.path] else []) ∧
    (t.fileOutcome file).records = ((failure? file).map (failureRecord file)).toList := by
  by_cases hsource : (ProjectPath.sourceKind? file.path).isSome && !ProjectPath.isSkipped file.path
  · have htransform : ((ProjectPath.sourceKind? file.path).isNone || ProjectPath.isSkipped file.path) =
        false := by
      rw [isNone_or_isSkipped, hsource, Bool.not_true]
    cases hread : file.read with
    | error cause =>
      simp [fileOutcome, transformFile, isListed, failure?, htransform, hsource, hread, failureRecord]
    | ok before =>
      cases hparse : Syntax.parse? (.ofPath file.path) before.toList with
      | none =>
        simp [fileOutcome, transformFile, isListed, failure?, htransform, hsource, hread, hparse,
          failureRecord]
      | some parsed =>
        have hmodified := isModified_eq t file.path before
        simp only [fileOutcome, transformFile, isListed, failure?, htransform, hsource, hread, hparse,
          hmodified, Option.isNone_some, Option.isSome_some, Bool.false_eq_true, if_false, if_true,
          Bool.true_and]
        refine ⟨?_, rfl⟩
        split_ifs <;> rfl
  · have htransform : ((ProjectPath.sourceKind? file.path).isNone || ProjectPath.isSkipped file.path) =
        true := by
      rw [isNone_or_isSkipped, Bool.eq_false_iff.mpr hsource, Bool.not_false]
    simp [fileOutcome, transformFile, isListed, failure?, htransform, hsource]

lemma isListed_of_failure {file : ProjectFile} {e : FileError} (t : Transformer)
    (h : failure? file = some e) : t.isListed file = false := by
  simp only [failure?] at h
  split_ifs at h with hsource
  cases hread : file.read with
  | error cause => simp [isListed, hread]
  | ok before =>
    simp only [hread] at h
    split_ifs at h with hparse
    simp [isListed, hread, hparse]

/-- A file that fails yields one record and nothing else. -/
lemma fileOutcome_of_failure {t : Transformer} {file : ProjectFile} {e : FileError}
    (h : failure? file = some e) :
    (t.fileOutcome file).modified = [] ∧ (t.fileOutcome file).records = [failureRecord file e] := by
  obtain ⟨hmodified, hrecords⟩ := fileOutcome_spec t file
  rw [isListed_of_failure t h] at hmodified
  rw [h] at hrecords
  exact ⟨List.map_eq_nil_iff.mp hmodified, hrecords⟩

/-- The paths of modified files are those of the listed ones, in their order. -/
lemma paths_modified (t : Transformer) (project : Project) :
    (project.flatMap fun file => (t.fileOutcome file).modified).map (·.path) =
      (project.filter t.isListed).map (·.path) := by
  induction project with
  | nil => rfl
  | cons file rest ih =>
    rw [List.flatMap_cons, List.map_append, ih, (fileOutcome_spec t file).1, List.filter_cons]
    split_ifs <;> rfl

lemma records_of_failures (t : Transformer) (project : Project) :
    (project.flatMap fun file => (t.fileOutcome file).records) =
      project.filterMap fun file => (failure? file).map (failureRecord file) := by
  induction project with
  | nil => rfl
  | cons file rest ih =>
    rw [List.flatMap_cons, ih, (fileOutcome_spec t file).2, List.filterMap_cons]
    cases (failure? file).map (failureRecord file) <;> rfl

/-- The counts after each batch increase, none is above the number of files, and the last one is it. -/
lemma doneAfter_spec {total done : Nat} {rest : List (List α)} (hne : ∀ batch ∈ rest, batch ≠ [])
    (htotal : done + rest.flatten.length = total) :
    (doneAfter total done rest).Pairwise (fun a b => a.1 < b.1) ∧
    (∀ count ∈ doneAfter total done rest, done < count.1 ∧ count.1 ≤ total ∧ count.2 = total) ∧
    (rest ≠ [] → (doneAfter total done rest).getLast? = some (total, total)) := by
  induction rest generalizing done with
  | nil => simp [doneAfter]
  | cons batch rest ih =>
    have hbatch := List.length_pos_iff.mpr (hne batch List.mem_cons_self)
    rw [List.flatten_cons, List.length_append] at htotal
    have hrest : done + batch.length + rest.flatten.length = total := by omega
    obtain ⟨hpair, hbounds, hlast⟩ := ih (fun other ho => hne other (List.mem_cons_of_mem _ ho)) hrest
    refine ⟨?_, ?_, fun _ => ?_⟩
    · exact List.pairwise_cons.mpr ⟨fun count hcount => (hbounds count hcount).1, hpair⟩
    · intro count hcount
      rcases List.mem_cons.mp hcount with rfl | hcount
      · exact ⟨Nat.lt_add_of_pos_right hbatch, by simp only; omega, rfl⟩
      · have hlater := hbounds count hcount
        exact ⟨by omega, hlater.2⟩
    · cases rest with
      | nil =>
        have hend : done + batch.length = total := by simpa using htotal
        rw [doneAfter, doneAfter, hend]
        rfl
      | cons next others =>
        rw [doneAfter, List.getLast?_cons, hlast (List.cons_ne_nil _ _)]
        rfl

lemma progress_spec (t : Transformer) (project : Project) :
    (t.transform project).progress.Pairwise (fun a b => a.1 < b.1) ∧
    (∀ count ∈ (t.transform project).progress, count.1 ≤ project.length ∧ count.2 = project.length) ∧
    (project ≠ [] →
      (t.transform project).progress.getLast? = some (project.length, project.length)) := by
  have hflatten : (batches t.batchSize project.length project).flatten = project :=
    flatten_batches (Nat.le_refl _)
  have htotal : 0 + (batches t.batchSize project.length project).flatten.length = project.length := by
    rw [hflatten, Nat.zero_add]
  obtain ⟨hpair, hbounds, hlast⟩ := doneAfter_spec (fun batch => ne_nil_of_mem_batches) htotal
  refine ⟨hpair, fun count hcount => (hbounds count hcount).2, fun hne => hlast fun hnone => hne ?_⟩
  rw [← hflatten, hnone]
  rfl

/-- Batches cannot be observed. For any rules, treatment of comments and size of batches, and in whatever
order the workers of a batch finish, a run on a project ends in one and the same summary. Its outputs,
details, files and records are those of the files taken one by one. A file is listed exactly when it is a
source file that is not left alone, can be read and parsed, and gets another text; one that fails leaves one
record with its path and nothing else. The counts that are reported increase and end with all files. -/
theorem batches_unobservable (t : Transformer) (size : Nat) (project : Project) :
    let batched : Transformer := { t with batchSize := size }
    let summary := batched.transform project
    (∀ other, Yields batched project other ↔ other = summary) ∧
    summary.outputs = (oneByOne t project).modified.map (·.output) ∧
    summary.details = (oneByOne t project).modified.map (·.detail) ∧
    summary.transformedFiles = (oneByOne t project).modified.map (·.path) ∧
    summary.transformedFiles.length = (oneByOne t project).modified.length ∧
    summary.records = (oneByOne t project).records ∧
    summary.transformedFiles = (project.filter t.isListed).map (·.path) ∧
    summary.records = project.filterMap (fun file => (failure? file).map (failureRecord file)) ∧
    (∀ file e, failure? file = some e →
      (t.fileOutcome file).modified = [] ∧ (t.fileOutcome file).records = [failureRecord file e] ∧
      (failureRecord file e).code = "FILE_TRANSFORM_ERROR" ∧
      (failureRecord file e).file = some file.path) ∧
    summary.progress.Pairwise (fun a b => a.1 < b.1) ∧
    (∀ count ∈ summary.progress, count.1 ≤ project.length ∧ count.2 = project.length) ∧
    (project ≠ [] → summary.progress.getLast? = some (project.length, project.length)) := by
  intro batched summary
  have hsame : oneByOne batched project = oneByOne t project := by
    rw [oneByOne_eq, oneByOne_eq]
    rfl
  obtain ⟨houtputs, hdetails, hrecords⟩ := transform_eq_oneByOne batched project
  rw [hsame] at houtputs hdetails hrecords
  have hpaths : summary.transformedFiles = (oneByOne t project).modified.map (·.path) := by
    rw [TransformSummary.transformedFiles, houtputs, List.map_map]
    rfl
  refine ⟨fun other => yields_iff, houtputs, hdetails, hpaths, by rw [hpaths, List.length_map], hrecords,
    hpaths.trans ?_, hrecords.trans ?_, fun file e hfailure => ?_, progress_spec batched project⟩
  · rw [oneByOne_eq]
    exact paths_modified t project
  · rw [oneByOne_eq]
    exact records_of_failures t project
  · obtain ⟨hmodified, hrecord⟩ := fileOutcome_of_failure hfailure
    exact ⟨hmodified, hrecord, rfl, rfl⟩

/-- A file that changes between a broken one, a style sheet and one that stays as it is. -/
def mixedFiles : Project :=
  [⟨"pages/broken.tsx", .inMemory "const a = ("⟩, ⟨"site.css", .inMemory "router.back()"⟩,
   ⟨"pages/a.tsx", .inMemory "router.back();"⟩, ⟨"lib/b.ts", .inMemory "const b = 1;"⟩,
   ⟨"lib/gone.ts", .onDisk "disk/lib/gone.ts" none⟩]

theorem batches_unobservable_mixedFiles :
    mixedFiles ≠ [] ∧ ∀ summary, Yields { rules := RuleSet.builtin, batchSize := 2 } mixedFiles summary →
      summary.outputs.map (·.content) = ["navigate(-1);"] ∧
      summary.records.map (·.file) = [some "pages/broken.tsx", some "lib/gone.ts"] ∧
      summary.progress = [(2, 5), (4, 5), (5, 5)] ∧ summary.progress.getLast? = some (5, 5) := by
  have hne : mixedFiles ≠ [] := List.cons_ne_nil _ _
  refine ⟨hne, fun summary hyields => ?_⟩
  obtain ⟨hsame, houtputs, _, _, _, hrecords, _, _, _, _, _, hlast⟩ :=
    batches_unobservable { rules := RuleSet.builtin } 2 mixedFiles
  obtain rfl := (hsame summary).mp hyields
  have hone : (oneByOne { rules := RuleSet.builtin } mixedFiles).modified.map (·.content) =
      ["navigate(-1);"] := by decide +kernel
  have hfiles : (oneByOne { rules := RuleSet.builtin } mixedFiles).records.map (·.file) =
      [some "pages/broken.tsx", some "lib/gone.ts"] := by decide +kernel
  refine ⟨?_, by rw [hrecords, hfiles], by decide +kernel, hlast hne⟩
  rw [houtputs, List.map_map]
  exact hone

end Transformer

end SpaMigration
