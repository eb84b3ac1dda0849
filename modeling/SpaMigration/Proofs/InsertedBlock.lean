import SpaMigration.Proofs.InsertionPlace

/-!
# Insertion as a splice

Inserting statements puts one block into a text, at its start or where a line ends, and leaves the rest as it
is. The block holds the statements that the text does not have. A statement of one line that the text does have
stays whole, as the cut is at the end of a line. So all statements occur in the result, and there is nothing to
insert the second time.
-/
namespace SpaMigration.ImportBlock

variable {text : List Char} {imports : List String} {statement : String}

/-- The statements of a list that a text does not have: each once, in the order in which they first come. -/
structure AreMissing (text : List Char) (imports statements : List String) : Prop where
  mem_iff : ∀ statement, statement ∈ statements ↔ statement ∈ imports ∧ ¬ statement.toList <:+: text
  nodup : statements.Nodup
  inOrder : statements.Pairwise fun one other => imports.idxOf one < imports.idxOf other

lemma missing_concat (text : List Char) (imports : List String) (statement : String) :
    missing text (imports ++ [statement]) =
      if statement.toList <:+: text ∨ statement ∈ imports then missing text imports
      else missing text imports ++ [statement] := by
  rw [missing, List.filter_append]
  by_cases hoccurs : statement.toList <:+: text
  · rw [List.filter_cons_of_neg (by simpa [Text.occursIn_iff] using hoccurs), List.filter_nil, List.append_nil,
      if_pos (.inl hoccurs), missing]
  · rw [List.filter_cons_of_pos (by simpa [← Text.occursIn_iff] using hoccurs), List.filter_nil,
      Text.dedup_concat, ← missing]
    by_cases hmem : statement ∈ imports
    · rw [if_pos (List.contains_iff_mem.mpr (mem_missing.mpr ⟨hmem, hoccurs⟩)), if_pos (.inr hmem)]
    · rw [if_neg (fun h => hmem (mem_missing.mp (List.contains_iff_mem.mp h)).1),
        if_neg (not_or.mpr ⟨hoccurs, hmem⟩)]

/-- A statement that comes later in the list is met after those in front of it. -/
lemma pairwise_missing (text : List Char) (imports : List String) :
    (missing text imports).Pairwise fun one other => imports.idxOf one < imports.idxOf other := by
  induction imports using List.reverseRecOn with
  | nil => exact List.Pairwise.nil
  | append_singleton imports statement ih =>
    have hindex : ∀ one ∈ missing text imports,
        (imports ++ [statement]).idxOf one = imports.idxOf one := fun one hone =>
      List.idxOf_append_of_mem (mem_missing.mp hone).1
    have hkept : (missing text imports).Pairwise fun one other =>
        (imports ++ [statement]).idxOf one < (imports ++ [statement]).idxOf other := by
      refine ih.imp_of_mem fun hone hother hlt => ?_
      rwa [hindex _ hone, hindex _ hother]
    rw [missing_concat]
    split_ifs with hknown
    · exact hkept
    · refine List.pairwise_append.mpr ⟨hkept, List.pairwise_singleton _ _, fun one hone other hother => ?_⟩
      obtain rfl := List.mem_singleton.mp hother
      obtain ⟨-, hfresh⟩ := not_or.mp hknown
      have hlt : imports.idxOf one < imports.length := List.idxOf_lt_length_of_mem (mem_missing.mp hone).1
      rw [hindex one hone, List.idxOf_append_of_notMem hfresh]
      omega

lemma areMissing_missing (text : List Char) (imports : List String) :
    AreMissing text imports (missing text imports) where
  mem_iff _ := mem_missing
  nodup := Text.nodup_dedup _
  inOrder := pairwise_missing text imports

/-- The block of some statements, cut into a text at a place: behind it at the start of the text, and otherwise
in front of it, a line break parts the block from the text. -/
inductive Splices (statements : List String) : List Char → List Char → Prop
  | atStart (text : List Char) : Splices statements text (lines statements ++ '\n' :: text)
  | atLineEnd {before after : List Char} (h : after = [] ∨ after.head? = some '\n') :
      Splices statements (before ++ after) (before ++ '\n' :: lines statements ++ after)

lemma splices_insert (h : missing text imports ≠ []) :
    Splices (missing text imports) text (insert text imports) := by
  obtain ⟨first, more, hmissing⟩ := List.exists_cons_of_ne_nil h
  rw [insert_eq hmissing, hmissing]
  rcases place_cases text with ⟨habove, htext, hline⟩ | ⟨habove, -, hbelow⟩
  · have hend : below text = [] ∨ (below text).head? = some '\n' := by
      cases hcases : below text with
      | nil => exact .inl rfl
      | cons c rest =>
        rw [hcases] at hline
        exact .inr (by simpa using hline)
    have hsplice : Splices (first :: more) (front text ++ below text)
        (front text ++ '\n' :: lines (first :: more) ++ below text) := .atLineEnd hend
    rw [← htext] at hsplice
    simpa [habove] using hsplice
  · rw [habove, hbelow, List.nil_append]
    exact .atStart text

lemma infix_lines {statements : List String} (h : statement ∈ statements) :
    statement.toList <:+: lines statements := by
  cases statements with
  | nil => cases h
  | cons first more =>
    rw [lines_cons]
    rcases List.mem_cons.mp h with rfl | hmore
    · exact (List.prefix_append _ _).isInfix
    · obtain ⟨before, after, rfl⟩ := List.append_of_mem hmore
      rw [List.flatMap_append, List.flatMap_cons]
      exact ⟨first.toList ++ before.flatMap (fun statement => '\n' :: statement.toList) ++ ['\n'],
        after.flatMap fun statement => '\n' :: statement.toList, by simp⟩

/-- What has no line break is not cut apart. -/
lemma Splices.infix_of_infix {statements : List String} {result part : List Char}
    (h : Splices statements text result) (hpart : '\n' ∉ part) (hoccurs : part <:+: text) :
    part <:+: result := by
  cases h with
  | atStart => exact hoccurs.trans ⟨lines statements ++ ['\n'], [], by simp⟩
  | @atLineEnd before after hend =>
    have hbefore : before <:+: before ++ '\n' :: lines statements ++ after := ⟨[], _, by simp; rfl⟩
    rcases hend with rfl | hhead
    · rw [List.append_nil] at hoccurs
      exact hoccurs.trans hbefore
    · obtain ⟨rest, rfl⟩ := List.head?_eq_some_iff.mp hhead
      rcases (Text.infix_append_cons_iff hpart).mp hoccurs with hfront | hrest
      · exact hfront.trans hbefore
      · exact hrest.trans ⟨before ++ '\n' :: lines statements ++ ['\n'], [], by simp⟩

lemma Splices.infix_statement {statements : List String} {result : List Char}
    (h : Splices statements text result) (hmem : statement ∈ statements) : statement.toList <:+: result := by
  cases h with
  | atStart => exact (infix_lines hmem).trans (List.prefix_append _ _).isInfix
  | @atLineEnd before after => exact (infix_lines hmem).trans ⟨before ++ ['\n'], after, by simp⟩

lemma insert_of_missing_eq_nil (h : missing text imports = []) : insert text imports = text := by
  rw [insert, h]

/-- Every statement of one line occurs in the result. -/
lemma infix_insert (hline : '\n' ∉ statement.toList) (h : statement ∈ imports) :
    statement.toList <:+: insert text imports := by
  by_cases hnone : missing text imports = []
  · rw [insert_of_missing_eq_nil hnone]
    by_contra habsent
    have hmem := mem_missing.mpr ⟨h, habsent⟩
    rw [hnone] at hmem
    cases hmem
  · have hsplice := splices_insert hnone
    by_cases hoccurs : statement.toList <:+: text
    · exact hsplice.infix_of_infix hline hoccurs
    · exact hsplice.infix_statement (mem_missing.mpr ⟨h, hoccurs⟩)

/-- Inserting statements of one line each leaves a text that has them all as it is. Otherwise it puts one block
of those that are missing at the start of the text or where a line ends. Then all occur, and the insertion
changes nothing the second time. -/
theorem insert_splices_once (text : List Char) (imports : List String)
    (hlines : ∀ statement ∈ imports, '\n' ∉ statement.toList) :
    ((∀ statement ∈ imports, statement.toList <:+: text) → insert text imports = text) ∧
    (¬ (∀ statement ∈ imports, statement.toList <:+: text) → ∃ statements,
      AreMissing text imports statements ∧ Splices statements text (insert text imports)) ∧
    (∀ statement ∈ imports, statement.toList <:+: insert text imports) ∧
    insert (insert text imports) imports = insert text imports := by
  have hunchanged : ∀ {text : List Char}, (∀ statement ∈ imports, statement.toList <:+: text) →
      insert text imports = text := fun hall => by
    apply insert_of_missing_eq_nil
    apply List.eq_nil_iff_forall_not_mem.mpr
    intro statement hmem
    obtain ⟨himport, habsent⟩ := mem_missing.mp hmem
    exact habsent (hall statement himport)
  have hoccur : ∀ statement ∈ imports, statement.toList <:+: insert text imports := fun statement himport =>
    infix_insert (hlines statement himport) himport
  refine ⟨hunchanged, fun hsome => ?_, hoccur, hunchanged hoccur⟩
  refine ⟨missing text imports, areMissing_missing text imports, splices_insert fun hnone => hsome ?_⟩
  intro statement himport
  by_contra habsent
  have hmem := mem_missing.mpr ⟨himport, habsent⟩
  rw [hnone] at hmem
  cases hmem

/-- A module with a comment behind its imports, in which one of the statements stands. -/
def importingModule : List Char :=
  "import React from 'react';\nimport \x7b\n  Link\n\x7d from 'links'\n// import './page.css'\nrender();\n".toList

/-- A statement that stands in the module, and two that do not, one of them twice. -/
def repeatedStatements : List String :=
  ["import b from 'b';", "import './page.css'", "import a from 'a';", "import b from 'b';"]

theorem insert_splices_once_importingModule :
    (∀ statement ∈ repeatedStatements, '\n' ∉ statement.toList) ∧
    ¬ (∀ statement ∈ repeatedStatements, statement.toList <:+: importingModule) ∧
    AreMissing importingModule repeatedStatements ["import b from 'b';", "import a from 'a';"] ∧
    insert importingModule repeatedStatements = ("import React from 'react';\nimport \x7b\n  Link\n\x7d from " ++
      "'links'\nimport b from 'b';\nimport a from 'a';\n// import './page.css'\nrender();\n").toList ∧
    (∀ statement ∈ repeatedStatements, statement.toList <:+: insert importingModule repeatedStatements) ∧
    insert (insert importingModule repeatedStatements) repeatedStatements =
      insert importingModule repeatedStatements := by
  have hlines : ∀ statement ∈ repeatedStatements, '\n' ∉ statement.toList := by decide
  obtain ⟨-, -, hoccur, honce⟩ := insert_splices_once importingModule repeatedStatements hlines
  have hmissing : missing importingModule repeatedStatements = ["import b from 'b';", "import a from 'a';"] := by
    unfold importingModule
    rw [String.toList_ofList]
    decide
  have habsent : ¬ (∀ statement ∈ repeatedStatements, statement.toList <:+: importingModule) := by
    have hone : "import b from 'b';" ∈ missing importingModule repeatedStatements := by simp [hmissing]
    exact fun hall => (mem_missing.mp hone).2 (hall _ (mem_missing.mp hone).1)
  refine ⟨hlines, habsent, hmissing ▸ areMissing_missing importingModule repeatedStatements, ?_, hoccur, honce⟩
  unfold importingModule
  rw [String.toList_append, String.toList_ofList, String.toList_ofList, String.toList_ofList]
  decide

end SpaMigration.ImportBlock
