import SpaMigration.Proofs.PatternWords
import SpaMigration.Proofs.ReplacementFrame

/-!
# Imports are mentioned in the text

Before a text is parsed in search of the imports of a component, it is searched for the path of the module. A
declaration names its module by a stretch of the text, the one between the quotes, so a text without the path
imports nothing from it, and with or without the first look the same is found. A path that is written with an
escape is not the path that is searched for in either way.
-/
namespace SpaMigration

open Syntax

/-- The path that a declaration names is what stands between the quotes of its source. -/
lemma slice?_of_importedModule? {source : Source} {node : Node} {path : String} (hpath : path ≠ "")
    (h : source.importedModule? node = some path) :
    ∃ string ∈ node.parts, string.kind = .stringLiteral ∧
      Text.slice? (dropMark source.text) (string.span.lo + 1) (string.span.hi - 1) = some path.toList := by
  unfold Source.importedModule? at h
  split at h
  · obtain ⟨string, hfound, rfl⟩ := Option.map_eq_some_iff.mp h
    refine ⟨string, List.mem_of_find?_eq_some hfound, ?_, ?_⟩
    · simpa using List.find?_some hfound
    · rw [Source.quoted] at hpath ⊢
      cases hslice : Text.slice? (dropMark source.text) (string.span.lo + 1) (string.span.hi - 1) with
      | none => simp [hslice] at hpath
      | some inner => simp
  · cases h

lemma isInfix_dropMark (text : List Char) : dropMark text <:+: text := by
  unfold dropMark
  split
  · exact (List.suffix_cons _ _).isInfix
  · exact List.infix_rfl

/-- The path that a declaration names is a stretch of the text. -/
lemma infix_of_importedModule? {source : Source} {node : Node} {path : String}
    (h : source.importedModule? node = some path) : path.toList <:+: source.text := by
  by_cases hpath : path = ""
  · simp [hpath]
  · obtain ⟨string, -, -, hslice⟩ := slice?_of_importedModule? hpath h
    obtain ⟨before, after, hsplit, -, -⟩ := Text.slice?_eq_some_iff.mp hslice
    exact List.IsInfix.trans ⟨before, after, hsplit.symm⟩ (isInfix_dropMark _)

namespace LegacyComponent

variable {component : LegacyComponent} {text : List Char} {source : Source}

/-- No declaration of a text, at whatever depth, imports a module that the text does not mention. -/
lemma importedModule?_ne_of_unmentioned (hparse : Source.parse? text = some source)
    (h : Text.occursIn component.modulePath.toList text = false) (node : Node) :
    source.importedModule? node ≠ some component.modulePath := by
  intro hmodule
  have hinfix := infix_of_importedModule? hmodule
  rw [Source.text_of_parse? hparse, ← Text.occursIn_iff, h] at hinfix
  cases hinfix

/-- The use of the component in the program of a text, whether the text mentions the module or not. -/
def usageOfProgram (component : LegacyComponent) (text : List Char) : ComponentUsage :=
  ((Source.parse? text).map (ComponentUsage.ofSource component)).getD .unused

/-- The default import of the module in the program of a text, whether the text mentions the module or not. -/
def importOfProgram? (component : LegacyComponent) (text : List Char) :
    Option (Option (Source × DefaultImport)) :=
  match Source.parse? text with
  | some source =>
    match source.defaultDeclaration? component.modulePath with
    | some (declaration, name) =>
      (source.importOf? component.modulePath declaration name).map fun found => some (source, found)
    | none => some none
  | none => some none

/-- A program that does not mention the module does not use the component. -/
lemma ofSource_of_unmentioned (hparse : Source.parse? text = some source)
    (h : Text.occursIn component.modulePath.toList text = false) :
    ComponentUsage.ofSource component source = .unused := by
  have hnone : (source.nodes.filter fun node =>
      source.importedModule? node == some component.modulePath) = [] :=
    List.filter_eq_nil_iff.mpr fun node _ hmodule =>
      importedModule?_ne_of_unmentioned hparse h node (beq_iff_eq.mp hmodule)
  simp [ComponentUsage.ofSource, hnone]

/-- A program that does not mention the module has no default import of it. -/
lemma defaultDeclaration?_of_unmentioned (hparse : Source.parse? text = some source)
    (h : Text.occursIn component.modulePath.toList text = false) :
    source.defaultDeclaration? component.modulePath = none := by
  refine List.findSome?_eq_none_iff.mpr fun item _ => if_neg fun hmodule => ?_
  exact importedModule?_ne_of_unmentioned hparse h item (beq_iff_eq.mp hmodule)

/-- To look for the path of the module before a text is parsed makes no difference, neither to the use of a
component nor to its default import: no declaration of a program that does not mention the path names it. -/
theorem first_look_exact (component : LegacyComponent) (text : List Char) :
    ComponentUsage.ofText component text = component.usageOfProgram text ∧
    component.findImport? text = component.importOfProgram? text ∧
    ∀ source, Source.parse? text = some source → Text.occursIn component.modulePath.toList text = false →
      ∀ node ∈ source.nodes, source.importedModule? node ≠ some component.modulePath := by
  refine ⟨?_, ?_, fun source hparse h node _ => importedModule?_ne_of_unmentioned hparse h node⟩
  · rw [ComponentUsage.ofText, usageOfProgram]
    split_ifs with hoccurs
    · rfl
    · cases hparse : Source.parse? text with
      | none => rfl
      | some source => exact (ofSource_of_unmentioned hparse (Bool.not_eq_true _ ▸ hoccurs)).symm
  · rw [findImport?, importOfProgram?]
    split_ifs with hoccurs
    · rfl
    · cases hparse : Source.parse? text with
      | none => rfl
      | some source => simp only [defaultDeclaration?_of_unmentioned hparse (Bool.not_eq_true _ ▸ hoccurs)]

/-- A page that imports a module whose path is written with an escape. -/
def escapedImport : List Char := "import Link from 'next/li\\x6ek';\nexport const a = <Link />;\n".toList

theorem first_look_exact_escapedImport : ∃ source, Source.parse? escapedImport = some source ∧
    source.nodes.filterMap source.importedModule? = ["next/li\\x6ek"] ∧
    Text.occursIn link.modulePath.toList escapedImport = false ∧
    ∀ node ∈ source.nodes, source.importedModule? node ≠ some link.modulePath := by
  have himports : (Source.parse? escapedImport).map (fun source =>
      source.nodes.filterMap source.importedModule?) = some ["next/li\\x6ek"] := by decide +kernel
  have hoccurs : Text.occursIn link.modulePath.toList escapedImport = false := by decide
  obtain ⟨source, hparse, hmodules⟩ := Option.map_eq_some_iff.mp himports
  exact ⟨source, hparse, hmodules, hoccurs, (first_look_exact link escapedImport).2.2 source hparse hoccurs⟩

end LegacyComponent

end SpaMigration
