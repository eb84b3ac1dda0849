import SpaMigration.Proofs.ReplacementFrame

/-!
# Uses that outlive their import

The import of a component goes together with all its uses exactly when the ranges of the uses do not
overlap and no call stands below another one. Otherwise a use stays behind: where it stands in an attribute
or a loader that is taken over into the new text, its own text is part of the result, while the name that it
uses is no longer imported.
-/
namespace SpaMigration

open Syntax Text

/-- The bytes that an edit replaces. -/
def Edit.range (edit : Edit) : Span := ⟨edit.lo, edit.hi⟩

/-- The two stretches do not overlap. -/
def Syntax.Span.Apart (a b : Span) : Prop := a.hi ≤ b.lo ∨ b.hi ≤ a.lo

lemma pairwise_apart_iff {edits : List Edit} :
    edits.Pairwise Edit.Apart ↔ (edits.map Edit.range).Pairwise Span.Apart := by
  rw [List.pairwise_map]
  rfl

namespace LegacyComponent

/-- The node is a call of the name. -/
def isCallOf (name : String) (node : Node) : Bool := ComponentUsage.calledName? node == some name

/-- The elements of a name with their opening tags. -/
def elementsOf (source : Source) (name : String) : List (Node × Node) :=
  source.nodes.filterMap fun node => (Source.openingOf? name node).map (node, ·)

/-- The stretch of the closing tag of an element, if it has one. -/
def closingSpan? (element : Node) : Option Span :=
  (element.parts.find? (·.kind == .closingTag)).map Node.span

/-- The ranges of all uses of a name that stands for the component: the tags of its elements, or its calls,
however deep they stand. -/
def useSpans (component : LegacyComponent) (source : Source) (name : String) : List Span :=
  match component with
  | .dynamic => (source.nodes.filter (isCallOf name)).map Node.span
  | _ => (elementsOf source name).map (·.2.span) ++
    (elementsOf source name).filterMap (closingSpan? ·.1)

/-- Lists that are read from one another have equal images where what is read has. -/
lemma map_eq_map_of_mapM {α β γ : Type} {read : α → Option β} {as : List α} {bs : List β}
    (h : as.mapM read = some bs) {f : α → γ} {g : β → γ} (hfg : ∀ a b, read a = some b → f a = g b) :
    as.map f = bs.map g := by
  rw [← List.forall₂_eq_eq_eq, List.forall₂_map_left_iff, List.forall₂_map_right_iff]
  exact (mapM_eq_some_iff.mp h).imp hfg

/-- Every element has its edits: the edits of a component with elements cover the ranges of all uses. -/
lemma map_range_renameElements {source : Source} {name : String} {elements : List TaggedElement}
    (h : source.elements? name = some elements) (newName : String) (change : TagChange) :
    (renameElements elements newName change).1.map Edit.range =
      (elementsOf source name).map (·.2.span) ++ (elementsOf source name).filterMap (closingSpan? ·.1) := by
  have hopening : (elementsOf source name).map (·.2.span) = elements.map (·.opening.span) := by
    refine map_eq_map_of_mapM h fun pair element hread => ?_
    exact (isOf_of_taggedElement? hread).span.symm
  have hclosing : (elementsOf source name).map (closingSpan? ·.1) = elements.map (·.closing) := by
    refine map_eq_map_of_mapM h fun pair element hread => ?_
    simp only [Source.taggedElement?, Option.bind_eq_bind, Option.bind_eq_some_iff, Option.pure_def,
      Option.some.injEq] at hread
    obtain ⟨attributes, _, rfl⟩ := hread
    rfl
  have hclosings : (elementsOf source name).filterMap (closingSpan? ·.1) = elements.filterMap (·.closing) := by
    have hid := congrArg (List.filterMap id) hclosing
    simpa [List.filterMap_map, Function.comp_def] using hid
  rw [hopening, hclosings]
  simp only [renameElements, List.map_map, List.map_append, List.map_filterMap, Option.map_map,
    Function.comp_def, Edit.range]
  congr 1
  simp

/-- Where every call has a loader, the edits of the calls cover the topmost calls. -/
lemma map_range_calls {source : Source} {name : String} {edits : List Edit}
    (h : dynamic.useEdits? source name = some (edits, true)) :
    edits.map Edit.range = (topmostOf (isCallOf name) source.items).map Node.span := by
  obtain ⟨calls, hcalls, hpair⟩ := Option.map_eq_some_iff.mp h
  obtain ⟨rfl, hall⟩ := Prod.mk.injEq .. ▸ hpair
  have hspans : (topmostOf (isCallOf name) source.items).map Node.span = calls.map LazyCall.span :=
    map_eq_map_of_mapM hcalls fun node call hread => (span_of_ofNode? hread).symm
  rw [hspans, List.map_filterMap, ← List.filterMap_eq_map]
  refine List.filterMap_congr fun call hcall => ?_
  obtain ⟨loader, hloader⟩ := Option.isSome_iff_exists.mp (List.all_eq_true.mp hall call hcall)
  simp [LazyCall.replacement, hloader, Edit.range]

/-- The edits of the uses cover some of the uses, and all of them exactly when no call stands below
another. -/
lemma map_range_useEdits? {component : LegacyComponent} {source : Source} {name : String}
    {edits : List Edit} (h : component.useEdits? source name = some (edits, true)) :
    (edits.map Edit.range).Sublist (component.useSpans source name) ∧
    (edits.map Edit.range = component.useSpans source name ↔
      (component = .dynamic → NoneBelow (isCallOf name) source.nodes)) := by
  by_cases hcomponent : component = .dynamic
  · subst hcomponent
    rw [map_range_calls h]
    have hsub := topmostOf_sublist (isCallOf name) source.items
    refine ⟨hsub.map Node.span, ?_⟩
    rw [Source.nodes, ← topmostOf_eq_filter_iff]
    constructor
    · intro heq _
      have hlen := congrArg List.length heq
      simp only [useSpans, List.length_map] at hlen
      exact hsub.eq_of_length hlen
    · intro heq
      simp only [useSpans, Source.nodes, heq rfl]
  · have hspans : edits.map Edit.range = component.useSpans source name := by
      cases component with
      | dynamic => exact absurd rfl hcomponent
      | _ =>
        obtain ⟨elements, helements, hpair⟩ := Option.map_eq_some_iff.mp h
        cases hpair
        exact map_range_renameElements helements _ _
    rw [hspans]
    exact ⟨List.Sublist.refl _, iff_of_true rfl fun h => absurd h hcomponent⟩

/-- The range is that of a call of the name below another call of it. -/
def IsInnerCall (source : Source) (name : String) (use : Span) : Prop :=
  ∃ call ∈ source.nodes, isCallOf name call ∧
    ∃ inner ∈ Node.nodesOf call.parts, isCallOf name inner ∧ inner.span = use

/-- Every use has an edit, except for calls below other calls. -/
lemma mem_range_or_isInnerCall {component : LegacyComponent} {source : Source} {name : String}
    {edits : List Edit} (h : component.useEdits? source name = some (edits, true)) {use : Span}
    (huse : use ∈ component.useSpans source name) :
    use ∈ edits.map Edit.range ∨ component = .dynamic ∧ IsInnerCall source name use := by
  by_cases hcomponent : component = .dynamic
  · subst hcomponent
    obtain ⟨node, hnode, rfl⟩ := List.mem_map.mp huse
    obtain ⟨hmem, hcall⟩ := List.mem_filter.mp hnode
    rw [map_range_calls h]
    rcases mem_topmostOf_or_below hcall source.items hmem with htop | ⟨above, habove, hbelow⟩
    · exact .inl (List.mem_map_of_mem htop)
    · obtain ⟨haboveNode, haboveCall⟩ := mem_nodesOf_of_mem_topmostOf source.items habove
      exact .inr ⟨rfl, above, haboveNode, haboveCall, node, hbelow, hcall, rfl⟩
  · refine .inl ?_
    rwa [(map_range_useEdits? h).2.mpr fun hdynamic => absurd hdynamic hcomponent]

/-- The edit of a use takes the text of one of its parts over into the new text as it is: the loader of a
call, or the value of an attribute that still is a value after the change. -/
inductive TakenOver (component : LegacyComponent) (source : Source) (name : String) : Edit → Span → Prop
  | loader {node value : Node} {loader : List Char} (hcomponent : component = .dynamic)
      (hnode : node ∈ source.nodes) (hname : isCallOf name node)
      (hvalue : (LazyCall.argumentsOf node).head?.bind LazyCall.plainArgument? = some value)
      (hloader : source.textAt? value.span = some loader) :
      TakenOver component source name
        ⟨node.span.lo, node.span.hi, "lazy(".toList ++ loader ++ [')']⟩ value.span
  | tagValue {node tag part value : Node} {element : TaggedElement} {kept : TagAttribute}
      {text : List Char} (hcomponent : component ≠ .dynamic) (hnode : node ∈ source.nodes)
      (htag : Source.openingOf? name node = some tag) (helement : element.IsOf source node tag)
      (hpart : part ∈ tag.parts) (hkind : part.kind = .tagAttribute) (hvalue : value ∈ part.parts)
      (htext : source.textAt? value.span = some text)
      (hkept : kept ∈ (component.tagChange element.opening.attributes).1)
      (hkeptValue : kept.value = some (String.ofList text)) :
      TakenOver component source name
        (element.openingEdit component.replacementName component.tagChange) value.span

/-- The value of an attribute stands in the tag. -/
lemma infix_render {tag : OpeningTag} {a : TagAttribute} {text : List Char} (ha : a ∈ tag.attributes)
    (hvalue : a.value = some (String.ofList text)) (name : String) :
    text <:+: (tag.render name).toList := by
  have hattribute : text <:+: (" " ++ a.render).toList := by
    simp only [TagAttribute.render, hvalue, String.toList_append, String.toList_ofList]
    exact ⟨" ".toList ++ (a.name.toList ++ "=".toList), [], by simp⟩
  have hjoined : (" " ++ a.render).toList <:+:
      (String.join (tag.attributes.map fun a => " " ++ a.render)).toList := by
    rw [String.toList_join, List.flatMap_map]
    obtain ⟨before, after, hsplit⟩ := List.append_of_mem ha
    rw [hsplit, List.flatMap_append, List.flatMap_cons]
    exact ⟨_, _, by rw [List.append_assoc]⟩
  refine (hattribute.trans hjoined).trans ?_
  simp only [OpeningTag.render, String.toList_append]
  exact ⟨_, _, rfl⟩

lemma TakenOver.kept {component : LegacyComponent} {source : Source} {name : String} {edit : Edit}
    {part : Span} (h : TakenOver component source name edit part) :
    ∃ text, slice? source.text part.lo part.hi = some text ∧ text <:+: edit.text := by
  cases h with
  | loader _ _ _ _ hloader => exact ⟨_, hloader, "lazy(".toList, [')'], rfl⟩
  | tagValue _ _ _ _ _ _ _ htext hkept hkeptValue =>
    exact ⟨_, htext, infix_render hkept hkeptValue component.replacementName⟩

end LegacyComponent

/-- The new text of an edit that is applied stands in the result. -/
lemma Edit.Spliced.text_kept {place : Nat} {rest result : List Char} {edits : List Edit}
    (h : Edit.Spliced place rest edits result) {edit : Edit} (he : edit ∈ edits) :
    edit.text <:+: result := by
  induction h with
  | done => simp at he
  | replace kept cut hlo hhi _ ih =>
    rcases List.mem_cons.mp he with rfl | he
    · exact ⟨kept, _, rfl⟩
    · exact (ih he).trans ⟨_, [], by rw [List.append_nil]⟩

/-- A stretch inside another one is a piece of its text. -/
lemma infix_of_slice? {s outer inner : List Char} {lo hi lo' hi' : Nat}
    (houter : slice? s lo hi = some outer) (hinner : slice? s lo' hi' = some inner)
    (hlo : lo ≤ lo') (hhi : hi' ≤ hi) : inner <:+: outer := by
  obtain ⟨before, after, rfl, rfl, rfl⟩ := slice?_eq_some_iff.mp houter
  obtain ⟨before', after', hsplit, rfl, rfl⟩ := slice?_eq_some_iff.mp hinner
  rw [List.append_assoc, List.append_assoc] at hsplit
  obtain ⟨left, rfl, hrest⟩ := exists_append_of_byteSize_le hsplit hlo
  rw [← List.append_assoc] at hrest
  have hle : byteSize (left ++ inner) ≤ byteSize outer := by
    simp only [byteSize_append] at hhi ⊢
    omega
  obtain ⟨right, rfl, _⟩ := exists_append_of_byteSize_le hrest.symm hle
  exact ⟨left, right, rfl⟩

namespace LegacyComponent

lemma findImport?_eq_some {component : LegacyComponent} {text : List Char} {source : Source}
    {imported : DefaultImport} (h : component.findImport? text = some (some (source, imported))) :
    occursIn component.modulePath.toList text ∧ Source.parse? text = some source ∧
      ∃ declaration, source.defaultDeclaration? component.modulePath =
        some (declaration, imported.boundName) ∧
        source.importOf? component.modulePath declaration imported.boundName = some imported := by
  unfold findImport? at h
  split_ifs at h with hoccurs
  · split at h
    · rename_i found hparse
      split at h
      · rename_i declaration name hdefault
        obtain ⟨other, himported, hpair⟩ := Option.map_eq_some_iff.mp h
        cases hpair
        have hname : imported.boundName = name := by
          obtain ⟨_, _, hbuilt⟩ := Option.bind_eq_some_iff.mp himported
          cases hbuilt
          rfl
        subst hname
        exact ⟨hoccurs, hparse, declaration, hdefault, himported⟩
      · cases h
    · cases h
  · cases h

/-- The edits of the uses and of the import are all applied exactly when they leave no use out and do not
overlap. -/
lemma ranges_perm_iff {component : LegacyComponent} {source : Source} {name : String} {uses : List Edit}
    {removal : Edit} {text : List Char} (huses : component.useEdits? source name = some (uses, true))
    (hfits : ∀ edit ∈ uses ++ [removal], edit.Fits text) :
    ((Edit.applied (byteSize text) 0 (Edit.sort (uses ++ [removal]))).map Edit.range).Perm
        (component.useSpans source name ++ [removal.range]) ↔
      (component.useSpans source name ++ [removal.range]).Pairwise Span.Apart ∧
      (component = .dynamic → NoneBelow (isCallOf name) source.nodes) := by
  obtain ⟨hsub, hall⟩ := map_range_useEdits? huses
  have happlied := Edit.applied_sort_perm_iff hfits
  rw [pairwise_apart_iff, List.map_append, List.map_singleton] at happlied
  constructor
  · intro hperm
    -- The counts leave no room for a use without an edit nor for an edit that is dropped.
    have hlen := hperm.length_eq
    have hcount := hsub.length_le
    have hcount' := (Edit.applied_sublist (byteSize text) 0 (Edit.sort (uses ++ [removal]))).length_le
    rw [(Edit.sort_perm _).length_eq] at hcount'
    simp only [List.length_map, List.length_append, List.length_singleton] at hlen hcount hcount'
    have hspans : uses.map Edit.range = component.useSpans source name :=
      hsub.eq_of_length (by rw [List.length_map]; omega)
    refine ⟨?_, hall.mp hspans⟩
    rw [← hspans]
    refine happlied.mp ?_
    have hsame := (Edit.applied_sublist (byteSize text) 0
      (Edit.sort (uses ++ [removal]))).eq_of_length
        (by rw [(Edit.sort_perm _).length_eq, List.length_append, List.length_singleton]; omega)
    rw [hsame]
    exact Edit.sort_perm _
  · rintro ⟨hapart, hbelow⟩
    rw [← hall.mpr hbelow] at hapart ⊢
    have hperm := (happlied.mpr hapart).map Edit.range
    rwa [List.map_append, List.map_singleton] at hperm

/-- Suppose that a replacement removes the import of the component. Then every use is replaced, unless it
starts inside another range that is replaced or is a call below another call; so exactly the uses go with
the import, each of them once, if and only if no two of these ranges overlap and no call stands below another
one. A use inside a part that is taken over into the new text stands in the result as it stood in the source,
although its name is bound no longer. -/
theorem import_goes_with_uses_iff {component : LegacyComponent} (options : ReplacementOptions)
    {text : List Char} {source : Source} {imported : DefaultImport}
    (hmark : text.head? ≠ some '\uFEFF')
    (hfound : component.findImport? text = some (some (source, imported)))
    (hremoved : (component.useEdits? source imported.boundName).map (·.2) = some true) :
    ∃ result edits, component.replace? options text = some result ∧
      Edit.Spliced 0 text edits result.code ∧
      (∀ use ∈ component.useSpans source imported.boundName,
        use ∈ edits.map Edit.range ∨ (∃ edit ∈ edits, edit.lo ≤ use.lo ∧ use.lo < edit.hi) ∨
          component = .dynamic ∧ IsInnerCall source imported.boundName use) ∧
      ((edits.map Edit.range).Perm
          (component.useSpans source imported.boundName ++ [imported.removal.range]) ↔
        (component.useSpans source imported.boundName ++ [imported.removal.range]).Pairwise Span.Apart ∧
        (component = .dynamic → NoneBelow (isCallOf imported.boundName) source.nodes)) ∧
      ∀ edit ∈ edits, ∀ part, TakenOver component source imported.boundName edit part →
        ∀ use ∈ component.useSpans source imported.boundName, part.lo ≤ use.lo → use.hi ≤ part.hi →
        ∀ useText, slice? text use.lo use.hi = some useText → useText <:+: result.code := by
  obtain ⟨hoccurs, hparse, declaration, hdefault, himported⟩ := findImport?_eq_some hfound
  obtain ⟨⟨uses, remove⟩, huses, rfl⟩ := Option.map_eq_some_iff.mp hremoved
  have htext := Source.text_of_parse? hparse
  have hsound := Source.isSound_of_parse? hparse hmark
  have hdeclaration := mem_nodes_of_defaultDeclaration? hdefault
  have hremoval : ReplacementEdit component source declaration imported.boundName imported.removal := by
    obtain ⟨other, hother, _, hremoval⟩ :=
      importOf?_eq_some hsound hdeclaration component imported.boundName
    cases himported.symm.trans hother
    exact hremoval
  have hfits : ∀ edit ∈ uses ++ [imported.removal], edit.Fits text := by
    intro edit hedit
    rw [← htext]
    rcases List.mem_append.mp hedit with hedit | hedit
    · exact (replacementEdit_of_mem_useEdits? declaration huses hedit).fits hsound
        hdeclaration
    · rw [List.mem_singleton.mp hedit]
      exact hremoval.fits hsound hdeclaration
  obtain ⟨warnings, hreplace⟩ := replace?_of_import options hoccurs hparse hdefault himported huses
  obtain ⟨result, hresult, _, hspliced⟩ := imported.finish?_spliced true
    (component.replacementImports options) warnings hfits
  simp only [if_true] at hspliced
  refine ⟨result, _, hreplace.trans hresult, hspliced, fun use huse => ?_, ?_, ?_⟩
  · rcases mem_range_or_isInnerCall huses huse with hrange | hinner
    · obtain ⟨edit, hedit, rfl⟩ := List.mem_map.mp hrange
      rcases Edit.mem_applied_sort_or_inside hfits (List.mem_append_left _ hedit) with happlied | hinside
      · exact .inl (List.mem_map_of_mem happlied)
      · exact .inr (.inl hinside)
    · exact .inr (.inr hinner)
  · exact ranges_perm_iff huses hfits
  · intro edit hedit part hpart use _ hlo hhi useText huse
    obtain ⟨partText, hslice, hinfix⟩ := hpart.kept
    rw [htext] at hslice
    exact ((infix_of_slice? hslice huse hlo hhi).trans hinfix).trans (hspliced.text_kept hedit)

/-- A call inside the loader of another call. -/
def nestedCalls : List Char :=
  "import dyn from 'next/dynamic';\nconst A = dyn(() => dyn(() => import('./A')));\n".toList

/-- The inner call is not replaced with the import. -/
theorem import_goes_with_uses_iff_nestedCalls :
    nestedCalls.head? ≠ some '\uFEFF' ∧ ∃ source imported,
      dynamic.findImport? nestedCalls = some (some (source, imported)) ∧
      (dynamic.useEdits? source imported.boundName).map (·.2) = some true ∧
      ∃ result edits, dynamic.replace? {} nestedCalls = some result ∧
        Edit.Spliced 0 nestedCalls edits result.code ∧
        ¬ (edits.map Edit.range).Perm
          (dynamic.useSpans source imported.boundName ++ [imported.removal.range]) := by
  have hmark : nestedCalls.head? ≠ some '\uFEFF' := by decide
  have hnested : (dynamic.findImport? nestedCalls).any (fun found => found.any fun pair =>
      ((dynamic.useEdits? pair.1 pair.2.boundName).map (·.2) == some true) &&
      pair.1.nodes.any fun node => isCallOf pair.2.boundName node &&
        (Node.nodesOf node.parts).any (isCallOf pair.2.boundName)) = true := by
    unfold nestedCalls
    rw [String.toList_ofList]
    decide +kernel
  obtain ⟨found, hfound, hnested⟩ := (Option.any_eq_true _ _).mp hnested
  obtain ⟨⟨source, imported⟩, rfl, hinside⟩ := (Option.any_eq_true _ _).mp hnested
  simp only [Bool.and_eq_true, beq_iff_eq, List.any_eq_true] at hinside
  obtain ⟨hremoved, node, hnode, hcall, inner, hinner, hcall'⟩ := hinside
  obtain ⟨result, edits, hresult, hspliced, _, hiff, _⟩ :=
    import_goes_with_uses_iff {} hmark hfound hremoved
  refine ⟨hmark, source, imported, hfound, hremoved, result, edits, hresult, hspliced, fun hperm => ?_⟩
  exact (hiff.mp hperm).2 rfl node hnode hcall inner hinner hcall'

/-- Parsed again, the result still calls the name whose import is gone. -/
theorem call_outlives_import :
    ∃ result source, dynamic.replace? {} nestedCalls = some result ∧
      Source.parse? result.code = some source ∧
      source.defaultDeclaration? dynamic.modulePath = none ∧
      ∃ node ∈ source.nodes, ComponentUsage.calledName? node = some "dyn" := by
  have houtlives : (dynamic.replace? {} nestedCalls).any (fun result =>
      (Source.parse? result.code).any fun source =>
        (source.defaultDeclaration? dynamic.modulePath).isNone &&
        source.nodes.any fun node => ComponentUsage.calledName? node == some "dyn") = true := by
    unfold nestedCalls
    rw [String.toList_ofList]
    decide +kernel
  obtain ⟨result, hresult, houtlives⟩ := (Option.any_eq_true _ _).mp houtlives
  obtain ⟨source, hsource, houtlives⟩ := (Option.any_eq_true _ _).mp houtlives
  simp only [Bool.and_eq_true, Option.isNone_iff_eq_none, List.any_eq_true, beq_iff_eq] at houtlives
  exact ⟨result, source, hresult, hsource, houtlives⟩

end LegacyComponent

end SpaMigration
