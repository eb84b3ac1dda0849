import SpaMigration.Proofs.EditSweep
import SpaMigration.Proofs.ImportLine
import SpaMigration.Proofs.SourceReads

/-!
# What a replacement touches

Replacing a component in a text without a byte-order mark always succeeds, and it replaces ranges of nodes
that belong to the component: the tags of its elements, its calls, and the declaration that imports it.
Everything else of the text is kept.
-/
namespace SpaMigration

open Syntax Text

namespace TaggedElement

/-- Replaces the opening tag by one with another name and changed attributes. -/
def openingEdit (element : TaggedElement) (name : String) (change : TagChange) : Edit where
  lo := element.opening.span.lo
  hi := element.opening.span.hi
  text := (({ element.opening with attributes := (change element.opening.attributes).1 }
    : OpeningTag).render name).toList

/-- Replaces a closing tag by one with another name. -/
def closingEdit (span : Span) (name : String) : Edit := ⟨span.lo, span.hi, ("</" ++ name ++ ">").toList⟩

end TaggedElement

open TaggedElement

lemma mem_renameElements {elements : List TaggedElement} {name : String} {change : TagChange}
    {edit : Edit} : edit ∈ (renameElements elements name change).1 ↔
      ∃ element ∈ elements, edit = element.openingEdit name change ∨
        ∃ span, element.closing = some span ∧ edit = closingEdit span name := by
  simp only [renameElements, List.map_map, List.mem_append, List.mem_map, List.mem_filterMap,
    Option.map_eq_some_iff, Function.comp]
  constructor
  · rintro (⟨element, helement, rfl⟩ | ⟨element, helement, span, hspan, rfl⟩)
    · exact ⟨element, helement, .inl rfl⟩
    · exact ⟨element, helement, .inr ⟨span, hspan, rfl⟩⟩
  · rintro ⟨element, helement, rfl | ⟨span, hspan, rfl⟩⟩
    · exact .inl ⟨element, helement, rfl⟩
    · exact .inr ⟨element, helement, span, hspan, rfl⟩

/-- The element is made of the tags of a node, whose opening tag is `tag`. -/
structure TaggedElement.IsOf (element : TaggedElement) (source : Source) (node tag : Node) : Prop where
  span : element.opening.span = tag.span
  attributes : (tag.parts.filter Source.isAttribute).mapM source.attribute? =
    some element.opening.attributes
  closing : ∀ span, element.closing = some span →
    ∃ part ∈ node.parts, part.kind = .closingTag ∧ part.span = span

lemma isOf_of_taggedElement? {source : Source} {node tag : Node} {element : TaggedElement}
    (h : source.taggedElement? node tag = some element) : element.IsOf source node tag := by
  simp only [Source.taggedElement?, Option.bind_eq_bind, Option.bind_eq_some_iff, Option.pure_def,
    Option.some.injEq] at h
  obtain ⟨attributes, hattributes, rfl⟩ := h
  refine ⟨rfl, hattributes, fun span hspan => ?_⟩
  obtain ⟨part, hpart, rfl⟩ := Option.map_eq_some_iff.mp hspan
  exact ⟨part, List.mem_of_find?_eq_some hpart, by simpa using List.find?_some hpart, rfl⟩

/-- The elements that are found are made of the nodes of that name. -/
lemma exists_of_mem_elements? {source : Source} {name : String} {elements : List TaggedElement}
    (h : source.elements? name = some elements) {element : TaggedElement} (he : element ∈ elements) :
    ∃ node ∈ source.nodes, ∃ tag, Source.openingOf? name node = some tag ∧
      element.IsOf source node tag := by
  obtain ⟨⟨node, tag⟩, hfound, hread⟩ := exists_of_mem_mapM h he
  obtain ⟨other, hnode, hopening⟩ := List.mem_filterMap.mp hfound
  obtain ⟨opening, htag, hpair⟩ := Option.map_eq_some_iff.mp hopening
  cases hpair
  exact ⟨node, hnode, tag, htag, isOf_of_taggedElement? hread⟩

/-- The edits that belong to the replacement of a component whose default import is `declaration` and binds
`name`: each one covers a tag of an element of that name, a call of that name, or the declaration. -/
inductive ReplacementEdit (component : LegacyComponent) (source : Source) (declaration : Node)
    (name : String) : Edit → Prop
  | opening {node tag : Node} {element : TaggedElement} (hcomponent : component ≠ .dynamic)
      (hnode : node ∈ source.nodes) (htag : Source.openingOf? name node = some tag)
      (helement : element.IsOf source node tag) :
      ReplacementEdit component source declaration name
        (element.openingEdit component.replacementName component.tagChange)
  | closing {node tag part : Node} (hcomponent : component ≠ .dynamic)
      (hnode : node ∈ source.nodes) (htag : Source.openingOf? name node = some tag)
      (hpart : part ∈ node.parts) (hkind : part.kind = .closingTag) :
      ReplacementEdit component source declaration name
        (closingEdit part.span component.replacementName)
  | call {node : Node} {call : LazyCall} {loader : List Char} (hcomponent : component = .dynamic)
      (hnode : node ∈ source.nodes) (hname : ComponentUsage.calledName? node = some name)
      (hcall : LazyCall.ofNode? source node = some call) (hloader : call.loader = some loader) :
      ReplacementEdit component source declaration name
        ⟨node.span.lo, node.span.hi, "lazy(".toList ++ loader ++ [')']⟩
  | kept {statement : String}
      (hkept : source.keptImport? declaration component.modulePath = some (some statement)) :
      ReplacementEdit component source declaration name
        ⟨declaration.span.lo, declaration.span.hi, statement.toList⟩
  | removed {span : Span}
      (hspan : span = declaration.span ∨ WholeLine source.text declaration.span span) :
      ReplacementEdit component source declaration name ⟨span.lo, span.hi, []⟩

lemma mem_nodes_of_defaultDeclaration? {source : Source} {modulePath name : String} {declaration : Node}
    (h : source.defaultDeclaration? modulePath = some (declaration, name)) :
    declaration ∈ source.nodes := by
  obtain ⟨item, hitem, hfound⟩ := List.exists_of_findSome?_eq_some h
  split_ifs at hfound
  obtain ⟨bound, _, hpair⟩ := Option.map_eq_some_iff.mp hfound
  cases hpair
  exact Node.subset_nodesOf source.items hitem

section

variable {component : LegacyComponent} {source : Source} {declaration : Node} {name : String}
  (hsound : source.IsSound) (hdeclaration : declaration ∈ source.nodes)
include hsound hdeclaration

/-- The edits of a replacement cover whole characters. -/
theorem ReplacementEdit.fits {edit : Edit}
    (h : ReplacementEdit component source declaration name edit) : edit.Fits source.text := by
  cases h with
  | opening _ hnode htag helement =>
    rw [Edit.Fits, openingEdit, helement.span]
    exact hsound _ (Source.mem_nodes_of_mem_parts hnode (Source.mem_parts_of_openingOf? htag))
  | closing _ hnode _ hpart _ => exact hsound _ (Source.mem_nodes_of_mem_parts hnode hpart)
  | call _ hnode _ _ _ => exact hsound _ hnode
  | kept _ => exact hsound _ hdeclaration
  | removed hspan =>
    rcases hspan with rfl | hline
    · exact hsound _ hdeclaration
    · exact hline.fits

/-- A declaration of a sound source can be taken apart, and its removal is an edit of the replacement. -/
lemma importOf?_eq_some (component : LegacyComponent) (name : String) : ∃ imported,
    source.importOf? component.modulePath declaration name = some imported ∧
      imported.boundName = name ∧
      ReplacementEdit component source declaration name imported.removal := by
  obtain ⟨kept, hkept⟩ := Source.keptImport?_isSome hsound hdeclaration component.modulePath
  simp only [Source.importOf?, hkept, Option.bind_eq_bind, Option.bind_some, Option.pure_def,
    Option.some.injEq, exists_eq_left', true_and]
  cases kept with
  | some statement => exact .kept hkept
  | none => exact .removed (wholeLine_eq_or (hsound _ hdeclaration))

end

namespace LegacyComponent

/-- The edits of the uses of a name that stands for the component, in the order in which the uses are
found, and whether the import is removed with them. -/
def useEdits? (component : LegacyComponent) (source : Source) (name : String) :
    Option (List Edit × Bool) :=
  match component with
  | .dynamic => (LazyCall.findAll? source name).map fun calls =>
    (calls.filterMap fun call => (call.replacement name {}).1, calls.all (·.loader.isSome))
  | _ => (source.elements? name).map fun elements =>
    ((renameElements elements component.replacementName component.tagChange).1, true)

lemma useEdits?_isSome (component : LegacyComponent) {source : Source} (hsound : source.IsSound)
    (name : String) : ∃ uses, component.useEdits? source name = some uses := by
  obtain ⟨elements, helements⟩ := Source.elements?_isSome hsound name
  obtain ⟨calls, hcalls⟩ := Source.findAll?_isSome hsound name
  cases component <;> simp [useEdits?, helements, hcalls]

/-- The edit of a call does not depend on the options, which only word its warnings. -/
lemma replacement_fst (call : LazyCall) (name : String) (options options' : ReplacementOptions) :
    (call.replacement name options).1 = (call.replacement name options').1 := by
  unfold LazyCall.replacement
  split <;> rfl

lemma span_of_ofNode? {source : Source} {node : Node} {call : LazyCall}
    (h : LazyCall.ofNode? source node = some call) : call.span = node.span := by
  unfold LazyCall.ofNode? at h
  dsimp only at h
  split at h <;>
  · obtain ⟨loader, _, hcall⟩ := Option.bind_eq_some_iff.mp h
    cases hcall
    rfl

/-- What the edits of the uses replace: the tags of the elements of a name, or the calls of it. -/
inductive UseEdit (component : LegacyComponent) (source : Source) (name : String) : Edit → Prop
  | opening {node tag : Node} {element : TaggedElement} (hcomponent : component ≠ .dynamic)
      (hnode : node ∈ source.nodes) (htag : Source.openingOf? name node = some tag)
      (helement : element.IsOf source node tag) :
      UseEdit component source name (element.openingEdit component.replacementName component.tagChange)
  | closing {node tag part : Node} (hcomponent : component ≠ .dynamic)
      (hnode : node ∈ source.nodes) (htag : Source.openingOf? name node = some tag)
      (hpart : part ∈ node.parts) (hkind : part.kind = .closingTag) :
      UseEdit component source name (closingEdit part.span component.replacementName)
  | call {node : Node} {call : LazyCall} {loader : List Char} (hcomponent : component = .dynamic)
      (hnode : node ∈ source.nodes) (hname : ComponentUsage.calledName? node = some name)
      (hcall : LazyCall.ofNode? source node = some call) (hloader : call.loader = some loader) :
      UseEdit component source name ⟨node.span.lo, node.span.hi, "lazy(".toList ++ loader ++ [')']⟩

theorem useEdit_of_mem_useEdits? {component : LegacyComponent} {source : Source} {name : String}
    {edits : List Edit} {remove : Bool} (h : component.useEdits? source name = some (edits, remove))
    {edit : Edit} (he : edit ∈ edits) : UseEdit component source name edit := by
  by_cases hcomponent : component = .dynamic
  · subst hcomponent
    obtain ⟨calls, hcalls, hpair⟩ := Option.map_eq_some_iff.mp h
    cases hpair
    obtain ⟨call, hcall, hedit⟩ := List.mem_filterMap.mp he
    obtain ⟨node, hnode, hread⟩ := exists_of_mem_mapM hcalls hcall
    obtain ⟨hmem, hname⟩ := mem_nodesOf_of_mem_topmostOf source.items hnode
    have hspan := span_of_ofNode? hread
    unfold LazyCall.replacement at hedit
    split at hedit
    · rename_i loader hloader
      cases hedit
      rw [hspan]
      exact .call rfl hmem (by simpa using hname) hread hloader
    · cases hedit
  · have huses : component.useEdits? source name = (source.elements? name).map fun elements =>
        ((renameElements elements component.replacementName component.tagChange).1, true) := by
      cases component <;> first | rfl | exact absurd rfl hcomponent
    obtain ⟨elements, helements, hpair⟩ := Option.map_eq_some_iff.mp (huses ▸ h)
    cases hpair
    obtain ⟨element, helement, hedit⟩ := mem_renameElements.mp he
    obtain ⟨node, hnode, tag, htag, hof⟩ := exists_of_mem_elements? helements helement
    rcases hedit with rfl | ⟨span, hspan, rfl⟩
    · exact .opening hcomponent hnode htag hof
    · obtain ⟨part, hpart, hkind, rfl⟩ := hof.closing span hspan
      exact .closing hcomponent hnode htag hpart hkind

/-- The edits of the uses are edits of the replacement. -/
theorem replacementEdit_of_mem_useEdits? {component : LegacyComponent} {source : Source}
    (declaration : Node) {name : String} {edits : List Edit} {remove : Bool}
    (h : component.useEdits? source name = some (edits, remove)) {edit : Edit} (he : edit ∈ edits) :
    ReplacementEdit component source declaration name edit := by
  cases useEdit_of_mem_useEdits? h he with
  | opening hcomponent hnode htag helement => exact .opening hcomponent hnode htag helement
  | closing hcomponent hnode htag hpart hkind => exact .closing hcomponent hnode htag hpart hkind
  | call hcomponent hnode hname hcall hloader => exact .call hcomponent hnode hname hcall hloader

/-- Where the module is imported by its default, a replacement applies the edits of the uses and, unless a
use has to stay, the removal of the import. -/
theorem replace?_of_import {component : LegacyComponent} (options : ReplacementOptions)
    {text : List Char} {source : Source} {declaration : Node} {imported : DefaultImport}
    {edits : List Edit} {remove : Bool} (hoccurs : occursIn component.modulePath.toList text)
    (hparse : Source.parse? text = some source)
    (hdeclaration : source.defaultDeclaration? component.modulePath =
      some (declaration, imported.boundName))
    (himported : source.importOf? component.modulePath declaration imported.boundName = some imported)
    (huses : component.useEdits? source imported.boundName = some (edits, remove)) :
    ∃ warnings, component.replace? options text =
      imported.finish? text edits remove (component.replacementImports options) warnings := by
  have hfound : component.findImport? text = some (some (source, imported)) := by
    simp [findImport?, hoccurs, hparse, hdeclaration, himported]
  have htext : source.text = text := Source.text_of_parse? hparse
  cases component with
  | dynamic =>
    obtain ⟨calls, hcalls, hpair⟩ := Option.map_eq_some_iff.mp huses
    cases hpair
    refine ⟨calls.flatMap fun call => (call.replacement imported.boundName options).2, ?_⟩
    simp only [replace?, hfound, Option.bind_eq_bind, Option.bind_some, replaceCalls?, hcalls, htext,
      List.filterMap_map, List.flatMap_map, Function.comp_def,
      replacement_fst _ imported.boundName options {}]
  | _ =>
    obtain ⟨elements, helements, hpair⟩ := Option.map_eq_some_iff.mp huses
    cases hpair
    simp only [replace?, hfound, Option.bind_eq_bind, Option.bind_some, replaceElements?, helements,
      htext]
    exact ⟨_, rfl⟩

end LegacyComponent

/-- Finishing applies the edits and the removal of the import, if that is asked for. -/
theorem DefaultImport.finish?_spliced (imported : DefaultImport) {text : List Char} {edits : List Edit}
    (remove : Bool) (imports warnings : List String)
    (hfits : ∀ edit ∈ if remove then edits ++ [imported.removal] else edits, edit.Fits text) :
    ∃ result, imported.finish? text edits remove imports warnings = some result ∧
      result.imports = imports ∧
      Edit.Spliced 0 text (Edit.applied (byteSize text) 0
        (Edit.sort (if remove then edits ++ [imported.removal] else edits))) result.code := by
  obtain ⟨code, hcode, hspliced⟩ := Edit.applyAll?_spliced hfits
  simp only [DefaultImport.finish?, hcode]
  exact ⟨_, rfl, rfl, hspliced⟩

namespace LegacyComponent

lemma replace?_unchanged {component : LegacyComponent} {text : List Char} (options : ReplacementOptions)
    (h : component.findImport? text = some none) : component.replace? options text = some (.unchanged text) := by
  simp only [replace?, h, Option.bind_eq_bind, Option.bind_some, Option.pure_def]

lemma findImport?_eq_none {component : LegacyComponent} {text : List Char}
    (h : ∀ source, Source.parse? text = some source →
      source.defaultDeclaration? component.modulePath = none) :
    component.findImport? text = some none := by
  unfold findImport?
  split_ifs
  · cases hparse : Source.parse? text with
    | none => rfl
    | some source => simp only [h source hparse]
  · rfl

end LegacyComponent

end SpaMigration
