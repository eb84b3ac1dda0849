import SpaMigration.Component.Replace
import SpaMigration.Proofs.InsertionPlace
import SpaMigration.Proofs.ItemRuns
import SpaMigration.Source

/-!
# Inserted imports

The statements that replacements need are closed items, so an inserted block of them is read as import
declarations as soon as the reading of the whole arrives at it. It does behind a run of items. It does not where
the line that the block is put behind belongs to a template literal, a comment or a longer item; and a statement
that the text has already, but in a comment or a string, is not inserted at all.
-/
namespace SpaMigration

open Syntax
open Text (byteSize)

namespace ImportBlock

/-! ## Statements of replacements -/

/-- What the replacements of components import. -/
def clauses : List (List Char) :=
  ["\x7b Image \x7d", "\x7b Link \x7d", "\x7b Helmet \x7d", "\x7b lazy, Suspense \x7d"].map String.toList

/-- The statement imports what a replacement needs from a package that can stand in quotes. -/
def IsReplacementImport (statement : String) : Prop :=
  ∃ clause ∈ clauses, ∃ package, IsPlain package ∧ statement.toList = importText clause package

lemma isReplacementImport {component : LegacyComponent} {options : ReplacementOptions} {statement : String}
    (hpackage : IsPlain options.imagePackage.toList) (h : statement ∈ component.replacementImports options) :
    IsReplacementImport statement := by
  cases component with
  | image =>
    obtain rfl := List.mem_singleton.mp h
    refine ⟨_, List.mem_cons_self, options.imagePackage.toList, hpackage, ?_⟩
    delta importText
    simp [clauseText]
  | link =>
    obtain rfl := List.mem_singleton.mp h
    exact ⟨"\x7b Link \x7d".toList, by decide, "react-router-dom".toList, by decide, by decide⟩
  | head =>
    obtain rfl := List.mem_singleton.mp h
    exact ⟨"\x7b Helmet \x7d".toList, by decide, "react-helmet-async".toList, by decide, by decide⟩
  | script => cases h
  | dynamic =>
    obtain rfl := List.mem_singleton.mp h
    exact ⟨"\x7b lazy, Suspense \x7d".toList, by decide, "react".toList, by decide, by decide⟩

lemma exists_isClause {clause : List Char} (h : clause ∈ clauses) : ∃ specifiers, IsClause clause specifiers := by
  simp only [clauses, List.map_cons, List.map_nil, List.mem_cons, List.not_mem_nil, or_false] at h
  have hnone : ∀ other ∈ ([] : List (List Char)), IsPlainName other := by simp
  have hsuspense : ∀ other ∈ ["Suspense".toList], IsPlainName other := by decide
  rcases h with rfl | rfl | rfl | rfl
  · exact ⟨_, isClause_names (by decide : IsPlainName "Image".toList) hnone⟩
  · exact ⟨_, isClause_names (by decide : IsPlainName "Link".toList) hnone⟩
  · exact ⟨_, isClause_names (by decide : IsPlainName "Helmet".toList) hnone⟩
  · exact ⟨_, isClause_names (by decide : IsPlainName "lazy".toList) hsuspense⟩

/-- The text of a statement up to its first quote. -/
def headText (clause : List Char) : List Char := "import".toList ++ ' ' :: (clause ++ " from ".toList)

lemma importText_eq (clause package : List Char) :
    importText clause package = headText clause ++ '\'' :: (package ++ '\'' :: [';']) := by
  have hfrom : " from '".toList = " from ".toList ++ ['\''] := by decide
  have hend : "';".toList = '\'' :: [';'] := by decide
  delta importText headText
  simp only [clauseText, hfrom, hend, List.append_assoc, List.cons_append, List.nil_append]

lemma quote_notMem_of_isPlain {package : List Char} (h : IsPlain package) : '\'' ∉ package :=
  fun hquote => (h _ hquote).1 rfl

lemma quote_notMem_headText : ∀ clause ∈ clauses, '\'' ∉ headText clause := by decide

lemma eq_of_headText_suffix : ∀ clause ∈ clauses, ∀ other ∈ clauses,
    headText clause <:+ headText other → clause = other := by decide

/-- A text has one cut at the first of its quotes. -/
lemma cut_unique {x x' y y' : List Char} (hx : '\'' ∉ x) (hx' : '\'' ∉ x') (h : x ++ '\'' :: y = x' ++ '\'' :: y') :
    x = x' ∧ y = y' := by
  have hcut : ∀ {u v : List Char}, '\'' ∉ u → (u ++ '\'' :: v).takeWhile (· != '\'') = u := fun {u v} hu => by
    have hall : ∀ c ∈ u, (c != '\'') = true := fun c hc => bne_iff_ne.mpr fun heq => hu (heq ▸ hc)
    rw [List.takeWhile_append_of_pos hall]
    simp
  have hsame : x = x' := by rw [← hcut (v := y) hx, h, hcut hx']
  subst hsame
  exact ⟨rfl, (List.cons.inj (List.append_cancel_left h)).2⟩

/-- No statement stands inside another one: each has just the two quotes around its package. -/
lemma eq_of_infix {statement other : String} (h : IsReplacementImport statement) (hother : IsReplacementImport other)
    (hoccurs : statement.toList <:+: other.toList) : statement = other := by
  obtain ⟨clause, hclause, package, hpackage, htext⟩ := h
  obtain ⟨clause', hclause', package', hpackage', htext'⟩ := hother
  have hquotes : ∀ {clause package}, clause ∈ clauses → IsPlain package →
      (importText clause package).count '\'' = 2 := fun {clause package} hclause hpackage => by
    rw [importText_eq, List.count_append, List.count_cons_self, List.count_append, List.count_cons_self,
      List.count_eq_zero.mpr (quote_notMem_headText clause hclause),
      List.count_eq_zero.mpr (quote_notMem_of_isPlain hpackage)]
    rfl
  rw [htext, htext'] at hoccurs
  obtain ⟨a, b, hab⟩ := hoccurs
  have hcount := congrArg (List.count '\'') hab
  rw [List.count_append, List.count_append, hquotes hclause hpackage, hquotes hclause' hpackage'] at hcount
  have ha : '\'' ∉ a := List.count_eq_zero.mp (by omega)
  have hfirst : '\'' ∉ a ++ headText clause := by
    simp [ha, quote_notMem_headText clause hclause]
  have hsplit : (a ++ headText clause) ++ '\'' :: (package ++ '\'' :: (';' :: b)) =
      headText clause' ++ '\'' :: (package' ++ '\'' :: [';']) := by
    rw [importText_eq, importText_eq] at hab
    simpa only [List.append_assoc, List.cons_append, List.nil_append] using hab
  obtain ⟨hhead, hpackages⟩ := cut_unique hfirst (quote_notMem_headText clause' hclause') hsplit
  obtain ⟨rfl, -⟩ :=
    cut_unique (quote_notMem_of_isPlain hpackage) (quote_notMem_of_isPlain hpackage') hpackages
  obtain rfl := eq_of_headText_suffix clause hclause clause' hclause' ⟨a, hhead⟩
  exact String.toList_inj.mp (htext.trans htext'.symm)

lemma length_pos {statement : String} (h : IsReplacementImport statement) : 0 < statement.toList.length := by
  obtain ⟨clause, hclause, package, hpackage, htext⟩ := h
  rw [htext]
  exact Nat.succ_pos _

lemma newline_notMem {statement : String} (h : IsReplacementImport statement) : '\n' ∉ statement.toList := by
  obtain ⟨clause, hclause, package, hpackage, htext⟩ := h
  have hhead : ∀ clause ∈ clauses, '\n' ∉ headText clause := by decide
  have hline : '\n' ∉ package := fun hc => (hpackage _ hc).2.2.1 rfl
  rw [htext, importText_eq]
  simp [hhead clause hclause, hline]

/-- The statement is a declaration among the items of a text that is a program. -/
def isImported (text : List Char) (statement : String) : Bool :=
  (Source.parse? text).any fun source => source.items.any fun item =>
    isImport item && Text.slice? (dropMark text) item.span.lo item.span.hi == some statement.toList

variable {text rest : List Char} {statement : String} {statements imports : List String} {all : List Node}

lemma isImported_iff (hparse : parse? .typedMarkup text = some all) :
    isImported text statement = true ↔ Declares (dropMark text) all statement.toList := by
  simp [isImported, Source.parse?, hparse, Declares]

lemma isSome_parse?_iff : (Source.parse? text).isSome ↔ ∃ all, parse? .typedMarkup text = some all := by
  simp [Source.parse?, Option.isSome_iff_exists]

/-- A statement is a run of itself alone. -/
lemma exists_isRun_statement (h : IsReplacementImport statement) :
    ∃ item, IsRun .typedMarkup statement.toList [item] ∧
      ∀ other, Declares statement.toList [item] other ↔ other = statement.toList := by
  obtain ⟨clause, hclause, package, hpackage, htext⟩ := h
  obtain ⟨specifiers, hspecifiers⟩ := exists_isClause hclause
  rw [htext]
  refine ⟨_, (isClosed_importText hspecifiers hpackage).isRun, fun other => ?_⟩
  have hslice : Text.slice? (importText clause package) 0 (byteSize (importText clause package)) =
      some (importText clause package) := Text.slice?_eq_some_iff.mpr ⟨[], [], by simp, rfl, rfl⟩
  simp only [Declares, List.mem_singleton, exists_eq_left, importNode, isImport, Node.kind, Node.span, hslice,
    Option.some.injEq, true_and]
  exact eq_comm

/-- The lines of a block are a run that declares just its statements. -/
lemma exists_isRun_lines (h : ∀ statement ∈ statements, IsReplacementImport statement) :
    ∃ items, IsRun .typedMarkup (lines statements) items ∧ items.length ≤ (lines statements).length ∧
      ∀ other, Declares (lines statements) items other ↔ other ∈ statements.map String.toList := by
  induction statements with
  | nil => exact ⟨[], isGap_nil.isRun, Nat.le_refl 0, by simp [Declares]⟩
  | cons statement statements ih =>
    obtain ⟨hstatement, hstatements⟩ := List.forall_mem_cons.mp h
    obtain ⟨item, hitem, hdeclares⟩ := exists_isRun_statement hstatement
    have hpos : 0 < statement.toList.length := length_pos hstatement
    cases statements with
    | nil => exact ⟨[item], hitem, hpos, fun other => (hdeclares other).trans (by simp)⟩
    | cons next statements =>
      obtain ⟨items, hitems, hlength, hothers⟩ := ih hstatements
      have hlines : lines (statement :: next :: statements) =
          statement.toList ++ (['\n'] ++ lines (next :: statements)) := by
        simp [lines, Text.joinWith]
      have hnewline : IsRun .typedMarkup ['\n'] [] := isGap_newline.isRun
      have hbehind := hnewline.append hitems
      rw [hlines]
      refine ⟨_, hitem.append hbehind, ?_, fun other => ?_⟩
      · simp only [Node.shiftAll_eq_map, List.length_append, List.length_map, List.length_cons, List.length_nil]
        omega
      · rw [hitem.declares_iff, hdeclares, hnewline.declares_iff, hothers]
        simp [Declares]

/-! ## The result of an insertion -/

/-- The text is a program in which every statement is imported. -/
def AllImported (text : List Char) (statements : List String) : Prop :=
  (Source.parse? text).isSome ∧ ∀ statement ∈ statements, isImported text statement = true

/-- Where the reading of a text arrives at a block of statements, they are imported. -/
lemma isImported_of_arrives (h : ∀ statement ∈ statements, IsReplacementImport statement)
    (hparse : (Source.parse? text).isSome) (harrives : Arrives .typedMarkup text (lines statements ++ rest))
    (hstatement : statement ∈ statements) : isImported text statement = true := by
  obtain ⟨all, hall⟩ := isSome_parse?_iff.mp hparse
  obtain ⟨block, hblock, -, hdeclares⟩ := exists_isRun_lines h
  obtain ⟨front, items, others, htext, hothers, rfl⟩ := harrives.exists_rest hall
  obtain ⟨behind, -, rfl⟩ := (hblock rest others).mp hothers
  have hlines : Declares (lines statements) block statement.toList :=
    (hdeclares _).mpr (List.mem_map_of_mem hstatement)
  have hrest := hblock.declares_iff.mpr (.inl hlines : _ ∨ Declares rest behind statement.toList)
  obtain ⟨item, hitem, himport⟩ := (declares_shiftAll front).mpr hrest
  rw [isImported_iff hall, htext]
  exact ⟨item, List.mem_append_right _ hitem, himport⟩

lemma exists_mark (text : List Char) : ∃ mark, text = mark ++ dropMark text := by
  unfold dropMark
  split
  · exact ⟨['\uFEFF'], rfl⟩
  · exact ⟨[], rfl⟩

variable {first : String} {more : List String}

/-- A missing statement is imported only if the reading of the result arrives at the block. -/
lemma arrives_of_isImported (h : ∀ statement ∈ imports, IsReplacementImport statement)
    (hmissing : missing text imports = first :: more) (himported : isImported (insert text imports) first = true) :
    Arrives .typedMarkup (insert text imports) (lines (first :: more) ++ below text) := by
  have hstatement : ∀ statement ∈ first :: more, IsReplacementImport statement := fun statement hs =>
    h statement (mem_missing.mp (hmissing ▸ hs)).1
  obtain ⟨hfirst, hmore⟩ := List.forall_mem_cons.mp hstatement
  have hapart : ∀ statement ∈ more, ¬ first.toList <:+: statement.toList := fun statement hs hoccurs => by
    obtain rfl := eq_of_infix hfirst (hmore statement hs) hoccurs
    have hnodup : (first :: more).Nodup := hmissing ▸ Text.nodup_dedup _
    exact (List.nodup_cons.mp hnodup).1 hs
  obtain ⟨all, hall⟩ := isSome_parse?_iff.mp (Option.isSome_of_any himported)
  obtain ⟨item, hitem, himport, hslice⟩ := (isImported_iff hall).mp himported
  obtain ⟨front, rest, htext, hfront, harrives⟩ := arrives_of_mem hall hitem himport
  obtain ⟨u, v, hu, hlo, -⟩ := Text.slice?_eq_some_iff.mp hslice
  -- The declaration starts where the only occurrence of the statement does.
  have hcut := Text.splitAtByte?_append u (first.toList ++ v)
  rw [← List.append_assoc, ← hu, hlo, ← hfront, htext, Text.splitAtByte?_append, Option.some.injEq,
    Prod.mk.injEq] at hcut
  obtain ⟨rfl, rfl⟩ := hcut
  obtain ⟨mark, hmark⟩ := exists_mark (insert text imports)
  rw [htext, ← List.append_assoc] at hmark
  have habove := eq_above_of_occurrence hmissing (newline_notMem hfirst) hapart hmark
  rw [insert_eq hmissing, habove] at hmark
  rwa [List.append_cancel_left hmark]

/-! ## Insertion behind a run -/

/-- The text starts with neither a byte-order mark nor a line for an interpreter. -/
def startsPlain (text : List Char) : Bool := text.head?.all fun c => c != '#' && c != '\uFEFF'

lemma dropMark_of_startsPlain (h : startsPlain text = true) : dropMark text = text :=
  Source.dropMark_of_head? fun hhead => by simp [startsPlain, hhead] at h

lemma parse?_iff_readsAll (h : startsPlain text = true) : parse? .typedMarkup text = some all ↔
    all.length ≤ text.length ∧ ReadsAll .typedMarkup text all := by
  have hline : skipInterpreterLine text = (text, 0) := by
    unfold skipInterpreterLine
    split
    · simp [startsPlain] at h
    · rfl
  rw [parse?_eq_some_iff, dropMark_of_startsPlain h, hline, ReadsAll]

/-- A program that starts with a run imports what the run and the rest declare. -/
lemma isImported_append_iff {front : List Char} {items others : List Node} (h : startsPlain (front ++ rest) = true)
    (hfront : IsRun .typedMarkup front items)
    (hparse : parse? .typedMarkup (front ++ rest) = some (items ++ Node.shiftAll (byteSize front) others)) :
    isImported (front ++ rest) statement = true ↔
      Declares front items statement.toList ∨ Declares rest others statement.toList := by
  rw [isImported_iff hparse, dropMark_of_startsPlain h, hfront.declares_iff]

/-- What stands in front of the rest of the text is skipped, whether the block is behind a line or not. -/
lemma exists_place (text : List Char) : ∃ opening closing rest, IsGap opening ∧ IsGap closing ∧
    above text = front text ++ opening ∧ text = front text ++ rest ∧ below text = closing ++ rest := by
  rcases place_cases text with ⟨habove, htext, -⟩ | ⟨habove, hfront, hbelow⟩
  · exact ⟨['\n'], [], _, isGap_newline, isGap_nil, habove, htext, rfl⟩
  · exact ⟨[], ['\n'], text, isGap_nil, isGap_newline, by rw [habove, hfront]; rfl, by rw [hfront]; rfl, hbelow⟩

lemma startsPlain_insert (h : startsPlain text = true) (hfirst : IsReplacementImport first)
    (hmissing : missing text imports = first :: more) : startsPlain (insert text imports) = true := by
  rw [insert_eq hmissing]
  rcases place_cases text with ⟨habove, htext, -⟩ | ⟨habove, -, -⟩
  · rw [habove]
    cases hfront : front text with
    | nil => rfl
    | cons c cs =>
      rw [htext, hfront] at h
      exact h
  · obtain ⟨clause, -, package, -, hstatement⟩ := hfirst
    rw [habove, lines_cons, hstatement]
    rfl

/-- A run stays one when a block and gaps are put behind it, and declares the statements besides. -/
lemma exists_isRun_block {front opening closing : List Char} {items : List Node}
    (hfront : IsRun .typedMarkup front items) (hopening : IsGap opening) (hclosing : IsGap closing)
    (h : ∀ statement ∈ statements, IsReplacementImport statement) :
    ∃ more, IsRun .typedMarkup (front ++ (opening ++ (lines statements ++ closing))) more ∧
      more.length ≤ items.length + (lines statements).length ∧
      ∀ other, Declares (front ++ (opening ++ (lines statements ++ closing))) more other ↔
        Declares front items other ∨ other ∈ statements.map String.toList := by
  obtain ⟨block, hblock, hlength, hdeclares⟩ := exists_isRun_lines h
  have hopen : IsRun .typedMarkup opening [] := hopening.isRun
  have hclose : IsRun .typedMarkup closing [] := hclosing.isRun
  refine ⟨_, hfront.append (hopen.append (hblock.append hclose)), ?_, fun other => ?_⟩
  · simp only [Node.shiftAll_eq_map, List.length_append, List.length_map, List.length_nil]
    omega
  · rw [hfront.declares_iff, hopen.declares_iff, hblock.declares_iff, hdeclares]
    simp [Declares]

/-- Behind a run, the statements of a block are all imported, and what the text imports stays imported. -/
lemma allImported_iff_of_isRun (h : ∀ statement ∈ imports, IsReplacementImport statement)
    (hstart : startsPlain text = true) (hparse : (Source.parse? text).isSome) {items : List Node}
    (hfront : IsRun .typedMarkup (front text) items) : AllImported (insert text imports) imports ↔
      ∀ statement ∈ imports, statement.toList <:+: text → isImported text statement = true := by
  obtain ⟨all, hall⟩ := isSome_parse?_iff.mp hparse
  cases hmissing : missing text imports with
  | nil =>
    have hsame : insert text imports = text := by
      unfold insert
      rw [hmissing]
    have hpresent : ∀ statement ∈ imports, statement.toList <:+: text := fun statement hs => by
      by_contra habsent
      have hmem := mem_missing.mpr ⟨hs, habsent⟩
      rw [hmissing] at hmem
      cases hmem
    rw [hsame]
    exact ⟨fun himported statement hs _ => himported.2 statement hs,
      fun himported => ⟨hparse, fun statement hs => himported statement hs (hpresent statement hs)⟩⟩
  | cons first more =>
    have hstatements : ∀ statement ∈ first :: more, IsReplacementImport statement := fun statement hs =>
      h statement (mem_missing.mp (hmissing ▸ hs)).1
    obtain ⟨opening, closing, rest, hopening, hclosing, habove, htext, hbelow⟩ := exists_place text
    obtain ⟨run, hrun, hlength, hdeclares⟩ := exists_isRun_block hfront hopening hclosing hstatements
    have hresult : insert text imports =
        (front text ++ (opening ++ (lines (first :: more) ++ closing))) ++ rest := by
      rw [insert_eq hmissing, habove, hbelow]
      simp only [List.append_assoc]
    have hplain := startsPlain_insert hstart (hstatements first List.mem_cons_self) hmissing
    -- Both programs are a run and then the same rest.
    obtain ⟨hcount, hreads⟩ := (parse?_iff_readsAll hstart).mp hall
    generalize hbefore : front text = before at *
    subst htext
    obtain ⟨others, hothers, rfl⟩ := (hfront rest all).mp hreads
    have hall' : parse? .typedMarkup (insert (before ++ rest) imports) = some (run ++ Node.shiftAll
        (byteSize (before ++ (opening ++ (lines (first :: more) ++ closing)))) others) := by
      rw [parse?_iff_readsAll hplain, hresult]
      refine ⟨?_, (hrun rest _).mpr ⟨others, hothers, rfl⟩⟩
      simp only [Node.shiftAll_eq_map, List.length_append, List.length_map] at hcount hlength ⊢
      omega
    have hafter : ∀ statement, isImported (insert (before ++ rest) imports) statement = true ↔
        isImported (before ++ rest) statement = true ∨ statement ∈ first :: more := fun statement => by
      rw [hresult] at hplain hall' ⊢
      rw [isImported_append_iff hplain hrun hall', isImported_append_iff hstart hfront hall, hdeclares]
      simp only [List.mem_map, String.toList_inj, exists_eq_right]
      tauto
    constructor
    · rintro ⟨-, himported⟩ statement hs hoccurs
      refine ((hafter statement).mp (himported statement hs)).resolve_right fun hmem => ?_
      exact (mem_missing.mp (hmissing ▸ hmem)).2 hoccurs
    · intro himported
      refine ⟨isSome_parse?_iff.mpr ⟨_, hall'⟩, fun statement hs => (hafter statement).mpr ?_⟩
      by_cases hoccurs : statement.toList <:+: before ++ rest
      · exact .inl (himported statement hs hoccurs)
      · exact .inr (hmissing ▸ mem_missing.mpr ⟨hs, hoccurs⟩)

/-- The imports of replacements, inserted into a text, are declarations of the result exactly when the reading of
the result arrives at the block, reads on to the end, and each statement that the text had already is one of its
declarations. If the text is a program and a run up to the place of insertion, as every program without an import
line is, only the last can fail: all are imported exactly when each statement that occurs in the text is one of
its declarations. -/
theorem replacements_imported_iff {options : ReplacementOptions}
    (hpackage : IsPlain options.imagePackage.toList)
    (himports : ∀ statement ∈ imports, ∃ component : LegacyComponent,
      statement ∈ component.replacementImports options) :
    (AllImported (insert text imports) imports ↔
      (Source.parse? (insert text imports)).isSome ∧
      (∀ first more, missing text imports = first :: more →
        Arrives .typedMarkup (insert text imports) (lines (first :: more) ++ below text)) ∧
      ∀ statement ∈ imports, statement.toList <:+: text →
        isImported (insert text imports) statement = true) ∧
    ((Source.parse? text).isSome → startsPlain text = true →
      (∃ items, IsRun .typedMarkup (front text) items) →
      (AllImported (insert text imports) imports ↔
        ∀ statement ∈ imports, statement.toList <:+: text → isImported text statement = true)) := by
  have h : ∀ statement ∈ imports, IsReplacementImport statement := fun statement hs => by
    obtain ⟨component, hcomponent⟩ := himports statement hs
    exact isReplacementImport hpackage hcomponent
  refine ⟨⟨?_, ?_⟩, fun hparse hstart ⟨items, hfront⟩ => allImported_iff_of_isRun h hstart hparse hfront⟩
  · rintro ⟨hparse, himported⟩
    refine ⟨hparse, fun first more hmissing => ?_, fun statement hs _ => himported statement hs⟩
    have hfirst : first ∈ imports := (mem_missing.mp (hmissing ▸ List.mem_cons_self)).1
    exact arrives_of_isImported h hmissing (himported first hfirst)
  · rintro ⟨hparse, harrives, hpresent⟩
    refine ⟨hparse, fun statement hs => ?_⟩
    by_cases hoccurs : statement.toList <:+: text
    · exact hpresent statement hs hoccurs
    · have hmem : statement ∈ missing text imports := mem_missing.mpr ⟨hs, hoccurs⟩
      cases hmissing : missing text imports with
      | nil =>
        rw [hmissing] at hmem
        cases hmem
      | cons first more =>
        rw [hmissing] at hmem
        have hblock : ∀ statement ∈ first :: more, IsReplacementImport statement := fun statement hs =>
          h statement (mem_missing.mp (hmissing ▸ hs)).1
        exact isImported_of_arrives hblock hparse (harrives first more hmissing) hmem

/-- A text with an import line at its start. -/
def importingText : List Char := "import React from 'react';\nReact;\n".toList

/-- The statement is inserted behind the import of such a text, and is a declaration then. -/
theorem replacements_imported_iff_importingText :
    AllImported (insert importingText (LegacyComponent.link.replacementImports {}))
      (LegacyComponent.link.replacementImports {}) := by
  have hfront : front importingText = importText "React".toList "react".toList := by decide +kernel
  have hrun : ∃ items, IsRun .typedMarkup (front importingText) items := by
    rw [hfront]
    exact ⟨_, (isClosed_importText (isClause_default (by decide)) (by decide)).isRun⟩
  have hpackage : IsPlain ({} : ReplacementOptions).imagePackage.toList := by decide
  refine ((replacements_imported_iff hpackage fun statement hs => ⟨.link, hs⟩).2 (by decide +kernel)
    (by decide) hrun).mpr fun statement hs hoccurs => ?_
  obtain rfl := List.mem_singleton.mp hs
  exact absurd hoccurs (by decide)

/-- A text with what looks like an import line inside a template literal. -/
def templateText : List Char := "const s = \x60\nimport a from 'a';\n\x60;\n".toList

/-- The statement is inserted into the template literal, where it is no declaration. -/
theorem import_inside_template : (Source.parse? templateText).isSome ∧
    ¬ AllImported (insert templateText (LegacyComponent.link.replacementImports {}))
      (LegacyComponent.link.replacementImports {}) := by
  have hmissed : isImported (insert templateText (LegacyComponent.link.replacementImports {}))
      "import \x7b Link \x7d from 'react-router-dom';" = false := by decide +kernel
  refine ⟨by decide +kernel, fun himported => ?_⟩
  rw [himported.2 _ (List.mem_singleton.mpr rfl)] at hmissed
  cases hmissed

end ImportBlock

end SpaMigration
