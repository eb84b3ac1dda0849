import SpaMigration.Proofs.ModuleMentions
import SpaMigration.Proofs.UnusedComponents

/-!
# Components in their turn

The components of a file are replaced one after another, each in the text that the ones before have left. The
turn of a component takes its module out of the text, if the module is mentioned nowhere but in an import that
goes as a whole; no other turn brings it back, nor does the insertion of imports at the end.
-/
namespace SpaMigration

open Syntax Text

namespace LegacyComponent

variable {component other : LegacyComponent} {text : List Char} {source : Source} {imported : DefaultImport}

/-- The import of a text without a byte-order mark can always be taken apart. -/
lemma findImport?_cases (component : LegacyComponent) (hmark : text.head? ≠ some '\uFEFF') :
    component.findImport? text = some none ∨
      ∃ source imported, component.findImport? text = some (some (source, imported)) := by
  by_cases hdefault : ∀ source, Source.parse? text = some source →
      source.defaultDeclaration? component.modulePath = none
  · exact .inl (findImport?_eq_none hdefault)
  · push Not at hdefault
    obtain ⟨source, hparse, hdefault⟩ := hdefault
    obtain ⟨⟨declaration, name⟩, hdefault⟩ := Option.ne_none_iff_exists'.mp hdefault
    obtain ⟨imported, himported, -⟩ := importOf?_eq_some (Source.isSound_of_parse? hparse hmark)
      (mem_nodes_of_defaultDeclaration? hdefault) component name
    by_cases hoccurs : occursIn component.modulePath.toList text = true
    · exact .inr ⟨source, imported, by simp [findImport?, hoccurs, hparse, hdefault, himported]⟩
    · exact .inl (by simp [findImport?, hoccurs])

/-- The edits that are made where a component is replaced cover whole characters, and the result is spliced
from them. -/
lemma replace?_spliced (options : ReplacementOptions) (hmark : text.head? ≠ some '\uFEFF')
    (hfound : component.findImport? text = some (some (source, imported))) :
    ∃ uses remove result, component.useEdits? source imported.boundName = some (uses, remove) ∧
      component.replace? options text = some result ∧
      result.imports = component.replacementImports options ∧
      (∀ edit ∈ uses ++ [imported.removal], edit.Fits text) ∧
      Edit.Spliced 0 text (Edit.applied (byteSize text) 0
        (Edit.sort (if remove then uses ++ [imported.removal] else uses))) result.code := by
  obtain ⟨hoccurs, hparse, declaration, hdefault, himported⟩ := findImport?_eq_some hfound
  have htext := Source.text_of_parse? hparse
  have hsound := Source.isSound_of_parse? hparse hmark
  have hdeclaration := mem_nodes_of_defaultDeclaration? hdefault
  obtain ⟨⟨uses, remove⟩, huses⟩ := useEdits?_isSome component hsound imported.boundName
  have hfits : ∀ edit ∈ uses ++ [imported.removal], edit.Fits text := by
    intro edit hedit
    rw [← htext]
    rcases List.mem_append.mp hedit with hedit | hedit
    · exact (replacementEdit_of_mem_useEdits? declaration huses hedit).fits hsound hdeclaration
    · obtain ⟨found, hother, -, hremoval⟩ :=
        importOf?_eq_some hsound hdeclaration component imported.boundName
      cases himported.symm.trans hother
      rw [List.mem_singleton.mp hedit]
      exact hremoval.fits hsound hdeclaration
  have hmade : ∀ edit ∈ if remove then uses ++ [imported.removal] else uses, edit.Fits text := by
    intro edit hedit
    refine hfits edit ?_
    split_ifs at hedit
    · exact hedit
    · exact List.mem_append_left _ hedit
  obtain ⟨warnings, hreplace⟩ := replace?_of_import options hoccurs hparse hdefault himported huses
  obtain ⟨result, hresult, himports, hspliced⟩ := imported.finish?_spliced remove
    (component.replacementImports options) warnings hmade
  exact ⟨uses, remove, result, huses, hreplace.trans hresult, himports, hfits, hspliced⟩

/-- What an import is replaced by: a statement for what is kept of it, or nothing. -/
lemma removal_cases {declaration : Node} {modulePath name : String}
    (h : source.importOf? modulePath declaration name = some imported) :
    imported.kept = none ∧ imported.removal.text = [] ∨
    ∃ statement, source.keptImport? declaration modulePath = some (some statement) ∧
      imported.kept = some statement ∧ imported.removal.text = statement.toList := by
  obtain ⟨kept, hkept, hbuilt⟩ := Option.bind_eq_some_iff.mp h
  cases hbuilt
  cases kept with
  | none => exact .inl ⟨rfl, rfl⟩
  | some statement => exact .inr ⟨statement, hkept, rfl, rfl⟩

/-- If the import of the component goes as a whole, no letter or slash stands in front of it. -/
def removesFreely (component : LegacyComponent) (text : List Char) : Bool :=
  (component.findImport? text).all fun found => found.all fun pair =>
    pair.2.kept.isSome || standsFree text pair.2.removal.lo

/-- The turn of another component brings no mention into a text. -/
theorem replace?_brings_no_mention (options : ReplacementOptions) (hmark : text.head? ≠ some '\uFEFF')
    (hne : component ≠ other) (hfree : other.removesFreely text = true)
    (hnone : ¬ component.IsMentioned text) :
    ∃ result, other.replace? options text = some result ∧ ¬ component.IsMentioned result.code := by
  rcases findImport?_cases other hmark with hfound | ⟨source, imported, hfound⟩
  · exact ⟨.unchanged text, replace?_unchanged options hfound, hnone⟩
  · obtain ⟨-, hparse, declaration, -, himported⟩ := findImport?_eq_some hfound
    obtain ⟨uses, remove, result, huses, hresult, -, -, hspliced⟩ := replace?_spliced options hmark hfound
    have htext := Source.text_of_parse? hparse
    have hsource : ¬ component.IsMentioned source.text := htext ▸ hnone
    refine ⟨result, hresult, hspliced.not_isMentioned (List.nil_append text).symm rfl ?_ ?_⟩
    · rintro a piece b rfl - -
      exact not_isMentioned_of_part hnone (List.infix_append a piece b)
    · intro edit hedit
      have hcases : edit ∈ uses ∨ edit = imported.removal := by
        have hmem := Edit.mem_of_mem_applied_sort hedit
        split_ifs at hmem
        · simpa using hmem
        · exact .inl hmem
      rcases hcases with huse | rfl
      · have huse := useEdit_of_mem_useEdits? huses huse
        exact .inl (huse.seals (huse.not_isMentioned hsource))
      · rcases removal_cases himported with ⟨hkept, hempty⟩ | ⟨statement, hkept, -, hstatement⟩
        · refine .inr ⟨hempty, ?_⟩
          simpa [removesFreely, hfound, hkept] using hfree
        · rw [hstatement]
          exact .inl (seals_of_keptImport? hne hsource hkept)

/-- Outside the range of the edit the text does not mention the component. -/
def mentionedOnlyIn (component : LegacyComponent) (text : List Char) (edit : Edit) : Bool :=
  (splitAtByte? edit.lo text).all (fun parts => !occursIn component.modulePath.toList parts.1) &&
    (splitAtByte? edit.hi text).all fun parts => !occursIn component.modulePath.toList parts.2

lemma not_isMentioned_of_apart {edit : Edit} (h : component.mentionedOnlyIn text edit = true)
    (hfits : edit.Fits text) {a piece b : List Char} (hsplit : text = a ++ piece ++ b)
    (hapart : edit.hi ≤ byteSize a ∨ byteSize (a ++ piece) ≤ edit.lo) : ¬ component.IsMentioned piece := by
  obtain ⟨cut, hcut⟩ := Option.isSome_iff_exists.mp hfits
  obtain ⟨before, after, htext, hlo, hhi⟩ := slice?_eq_some_iff.mp hcut
  have hatLo := splitAtByte?_eq_some_iff.mpr ⟨htext.trans (List.append_assoc _ _ _), hlo⟩
  have hatHi := splitAtByte?_eq_some_iff.mpr ⟨htext, hhi⟩
  simp only [mentionedOnlyIn, hatLo, hatHi, Option.all_some, Bool.and_eq_true, Bool.not_eq_true',
    ← Bool.not_eq_true, occursIn_iff] at h
  rcases hapart with hapart | hapart
  · have hmeet : (before ++ cut) ++ after = a ++ (piece ++ b) := by
      rw [← htext, hsplit, List.append_assoc]
    obtain ⟨m, -, rfl⟩ := exists_append_of_byteSize_le hmeet (by omega)
    exact not_isMentioned_of_part h.2 ⟨m, b, by simp⟩
  · have hmeet : (a ++ piece) ++ b = before ++ (cut ++ after) := by
      rw [← hsplit, htext, List.append_assoc]
    obtain ⟨m, rfl, -⟩ := exists_append_of_byteSize_le hmeet (by omega)
    exact not_isMentioned_of_part h.1 ⟨a, m, by simp⟩

/-- The turn of the component takes its module out of a text: the text does not mention the module, or only
where it is imported, and that import goes as a whole with the uses. It starts inside no use, and no new text of
a use mentions the module. -/
def clears (component : LegacyComponent) (text : List Char) : Bool :=
  !occursIn component.modulePath.toList text ||
    (component.findImport? text).any fun found => found.any fun (source, imported) =>
      imported.kept.isNone && component.mentionedOnlyIn text imported.removal &&
        (component.useEdits? source imported.boundName).any fun (uses, remove) =>
          remove && uses.all fun use => !occursIn component.modulePath.toList use.text &&
            !(use.lo ≤ imported.removal.lo && imported.removal.lo < use.hi)

theorem replace?_of_clears (options : ReplacementOptions) (hmark : text.head? ≠ some '\uFEFF')
    (hfree : component.removesFreely text = true) (h : component.clears text = true) :
    ∃ result, component.replace? options text = some result ∧ ¬ component.IsMentioned result.code := by
  rcases findImport?_cases component hmark with hfound | ⟨source, imported, hfound⟩
  · have hnone : ¬ component.IsMentioned text := by
      simpa [clears, hfound, ← Bool.not_eq_true, occursIn_iff] using h
    exact ⟨.unchanged text, replace?_unchanged options hfound, hnone⟩
  · obtain ⟨hoccurs, hparse, declaration, -, himported⟩ := findImport?_eq_some hfound
    obtain ⟨uses, remove, result, huses, hresult, -, hfits, hspliced⟩ :=
      replace?_spliced options hmark hfound
    simp only [clears, hoccurs, Bool.not_true, Bool.false_or, hfound, huses, Option.any_some,
      Bool.and_eq_true, Option.isNone_iff_eq_none, List.all_eq_true, Bool.not_eq_true',
      ← Bool.not_eq_true, occursIn_iff, decide_eq_true_eq] at h
    obtain ⟨⟨hkept, honly⟩, rfl, huse⟩ := h
    have hempty : imported.removal.text = [] := by
      rcases removal_cases himported with ⟨-, hempty⟩ | ⟨statement, -, hstatement, -⟩
      · exact hempty
      · rw [hkept] at hstatement
        cases hstatement
    have hmem : imported.removal ∈ uses ++ [imported.removal] := by simp
    -- The import starts inside no use, so its removal is not dropped.
    have happlied : imported.removal ∈ Edit.applied (byteSize text) 0
        (Edit.sort (uses ++ [imported.removal])) := by
      rcases Edit.mem_applied_sort_or_inside hfits hmem with happlied | ⟨edit, hedit, hlo, hhi⟩
      · exact happlied
      · rcases List.mem_append.mp (Edit.mem_of_mem_applied_sort hedit) with hin | hin
        · exact absurd ⟨hlo, hhi⟩ (huse edit hin).2
        · rwa [List.mem_singleton.mp hin] at hedit
    refine ⟨result, hresult, hspliced.not_isMentioned (List.nil_append text).symm rfl ?_ ?_⟩
    · intro a piece b hsplit _ hapart
      exact not_isMentioned_of_apart honly (hfits _ hmem) hsplit (hapart _ happlied)
    · intro edit hedit
      rcases List.mem_append.mp (Edit.mem_of_mem_applied_sort hedit) with hin | hin
      · exact .inl ((useEdit_of_mem_useEdits? huses hin).seals (huse edit hin).1)
      · rw [List.mem_singleton.mp hin]
        refine .inr ⟨hempty, ?_⟩
        simpa [removesFreely, hfound, hkept] using hfree

/-- A component that is imported by its default is in use. -/
lemma used_of_findImport? (hfound : component.findImport? text = some (some (source, imported))) :
    (ComponentUsage.ofText component text).used = true := by
  obtain ⟨hoccurs, hparse, _, hdefault, -⟩ := findImport?_eq_some hfound
  exact used_of_defaultDeclaration? hoccurs hparse hdefault

end LegacyComponent

namespace FileReplacement

variable {options : ReplacementOptions} {component : LegacyComponent} {components : List LegacyComponent}
  {text : List Char}

/-- The text after the turn of a component. -/
def afterTurn (options : ReplacementOptions) (text : List Char) (component : LegacyComponent) : List Char :=
  ((component.replace? options text).map (·.code)).getD text

/-- The components in their order, each with the text that it is looked for in. -/
def turns (options : ReplacementOptions) :
    List LegacyComponent → List Char → List (LegacyComponent × List Char)
  | [], _ => []
  | component :: rest, text =>
    (component, text) :: turns options rest (afterTurn options text component)

/-- A turn on a text without a byte-order mark succeeds, whether the component is in use or not, and it adds
the imports of the replacement at most. -/
lemma replace_cons (path : String) (state : FileReplacement) (hmark : state.code.head? ≠ some '\uFEFF') :
    ∃ next : FileReplacement,
      replace options path (component :: components) state = replace options path components next ∧
      next.code = afterTurn options state.code component ∧
      ∀ statement ∈ next.imports,
        statement ∈ state.imports ∨ statement ∈ component.replacementImports options := by
  rcases LegacyComponent.findImport?_cases component hmark with hfound | ⟨source, imported, hfound⟩
  · have hresult := LegacyComponent.replace?_unchanged options hfound
    refine ⟨state, ?_, by simp [afterTurn, hresult, ReplacedText.unchanged], fun _ => .inl⟩
    simp only [replace, hresult, ReplacedText.unchanged, beq_self_eq_true, if_true, ite_self]
  · obtain ⟨-, -, result, -, hresult, himports, -⟩ :=
      LegacyComponent.replace?_spliced options hmark hfound
    have hcode : afterTurn options state.code component = result.code := by simp [afterTurn, hresult]
    simp only [replace, LegacyComponent.used_of_findImport? hfound, hresult, if_true, hcode]
    split_ifs with hsame
    · exact ⟨state, rfl, (beq_iff_eq.mp hsame).symm, fun _ => .inl⟩
    · refine ⟨_, rfl, rfl, fun statement hstatement => ?_⟩
      rw [← himports]
      exact List.mem_append.mp hstatement

/-- Where no turn meets a byte-order mark, the replacement goes to the end, turn after turn. -/
theorem replace_of_turns (path : String) (state : FileReplacement)
    (hmarks : ∀ turn ∈ turns options components state.code, turn.2.head? ≠ some '\uFEFF') :
    ∃ final : FileReplacement, replace options path components state = (final, true) ∧
      final.code = components.foldl (afterTurn options) state.code ∧
      ∀ statement ∈ final.imports, statement ∈ state.imports ∨
        ∃ component : LegacyComponent, statement ∈ component.replacementImports options := by
  induction components generalizing state with
  | nil => exact ⟨state, rfl, rfl, fun _ => .inl⟩
  | cons component rest ih =>
    obtain ⟨hmark, hrest⟩ := List.forall_mem_cons.mp hmarks
    obtain ⟨next, hnext, hcode, himports⟩ := replace_cons path state hmark
    rw [← hcode] at hrest
    obtain ⟨final, hfinal, hfinalCode, hfinalImports⟩ := ih next hrest
    refine ⟨final, hnext.trans hfinal, by rw [hfinalCode, hcode, List.foldl_cons], ?_⟩
    intro statement hstatement
    rcases hfinalImports statement hstatement with hin | hin
    · exact (himports statement hin).imp_right fun hown => ⟨component, hown⟩
    · exact .inr hin

/-- Nothing stands in the way of the component at a turn: the text does not start with a byte-order mark,
what is imported stands free where it goes, and at its own turn the component is cleared. -/
def isClearTurn (component : LegacyComponent) (turn : LegacyComponent × List Char) : Bool :=
  turn.2.head? != some '\uFEFF' && turn.1.removesFreely turn.2 &&
    (turn.1 != component || component.clears turn.2)

lemma not_isMentioned_afterTurn {other : LegacyComponent} (h : isClearTurn component (other, text) = true)
    (hcases : other = component ∨ ¬ component.IsMentioned text) :
    ¬ component.IsMentioned (afterTurn options text other) := by
  simp only [isClearTurn, Bool.and_eq_true, bne_iff_ne, ne_eq, Bool.or_eq_true] at h
  obtain ⟨⟨hmark, hfree⟩, hclears⟩ := h
  by_cases hsame : other = component
  · subst hsame
    obtain ⟨result, hresult, hnone⟩ := LegacyComponent.replace?_of_clears options hmark hfree
      (hclears.resolve_left (not_not_intro rfl))
    simpa [afterTurn, hresult] using hnone
  · obtain ⟨result, hresult, hnone⟩ := LegacyComponent.replace?_brings_no_mention options hmark
      (Ne.symm hsame) hfree (hcases.resolve_left hsame)
    simpa [afterTurn, hresult] using hnone

/-- When the turns are over, a component that had its turn is not mentioned. -/
theorem not_isMentioned_after_turns
    (h : ∀ turn ∈ turns options components text, isClearTurn component turn = true)
    (hcases : component ∈ components ∨ ¬ component.IsMentioned text) :
    ¬ component.IsMentioned (components.foldl (afterTurn options) text) := by
  induction components generalizing text with
  | nil => exact hcases.resolve_left List.not_mem_nil
  | cons other rest ih =>
    obtain ⟨hturn, hrest⟩ := List.forall_mem_cons.mp h
    refine ih hrest ?_
    rcases hcases with hmem | hnone
    · rcases List.mem_cons.mp hmem with rfl | hmem
      · exact .inr (not_isMentioned_afterTurn hturn (.inl rfl))
      · exact .inl hmem
    · exact .inr (not_isMentioned_afterTurn hturn (.inr hnone))

end FileReplacement

namespace LegacyComponent

variable {component : LegacyComponent}

lemma not_isMentioned_replacementImports {options : ReplacementOptions}
    (hpackage : ¬ component.IsMentioned options.imagePackage.toList) {other : LegacyComponent}
    {statement : String} (h : statement ∈ other.replacementImports options) :
    ¬ component.IsMentioned statement.toList := by
  cases other with
  | image =>
    obtain rfl := List.mem_singleton.mp h
    have hquote : isPathChar '\'' = false := by decide
    have hfront : ¬ component.IsMentioned "import \x7b Image \x7d from ".toList := by
      cases component <;> decide
    have hback : ¬ component.IsMentioned [';'] := by cases component <;> decide
    have hstatement : ("import \x7b Image \x7d from '" ++ options.imagePackage ++ "';").toList =
        "import \x7b Image \x7d from ".toList ++ '\'' :: (options.imagePackage.toList ++ '\'' :: [';']) := by
      simp
    rw [hstatement]
    exact not_isMentioned_append_cons hquote hfront (not_isMentioned_append_cons hquote hpackage hback)
  | script => simp [replacementImports] at h
  | _ =>
    obtain rfl := List.mem_singleton.mp h
    cases component <;> decide

/-- Statements on lines of their own make no mention. -/
lemma not_isMentioned_insert {text : List Char} {imports : List String} (htext : ¬ component.IsMentioned text)
    (himports : ∀ statement ∈ imports, ¬ component.IsMentioned statement.toList) :
    ¬ component.IsMentioned (ImportBlock.insert text imports) := by
  have hbreak : isPathChar '\n' = false := by decide
  cases hmissing : ImportBlock.missing text imports with
  | nil =>
    rw [ImportBlock.insert, hmissing]
    exact htext
  | cons first more =>
    have hnone : ∀ statement ∈ first :: more, ¬ component.IsMentioned statement.toList :=
      fun statement hin => himports statement (ImportBlock.mem_missing.mp (hmissing ▸ hin)).1
    obtain ⟨hfirst, hmore⟩ := List.forall_mem_cons.mp hnone
    have hlines : ¬ component.IsMentioned (ImportBlock.lines (first :: more)) := by
      have hblock := not_isMentioned_flatMap hbreak hfirst (List.forall_mem_map.mpr hmore)
      rwa [List.flatMap_map, ← ImportBlock.lines_cons] at hblock
    have hblock : ¬ component.IsMentioned
        (ImportBlock.lines (first :: more) ++ ImportBlock.below text) := by
      rcases ImportBlock.below_eq text with hbelow | ⟨rest, hbelow, hrest⟩
      · rwa [hbelow, List.append_nil]
      · rw [hbelow]
        exact not_isMentioned_append_cons hbreak hlines (not_isMentioned_of_part htext hrest)
    rw [ImportBlock.insert_eq hmissing]
    rcases ImportBlock.place_cases text with ⟨habove, hsplit, -⟩ | ⟨habove, -, -⟩
    · have hfront : ImportBlock.front text <:+: text := ⟨[], ImportBlock.below text, hsplit.symm⟩
      rw [habove, List.append_assoc, List.singleton_append]
      exact not_isMentioned_append_cons hbreak (not_isMentioned_of_part htext hfront) hblock
    · rwa [habove, List.nil_append]

end LegacyComponent

end SpaMigration
