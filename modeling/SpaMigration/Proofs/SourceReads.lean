import Mathlib.Data.List.Forall2
import SpaMigration.Component.Replace
import SpaMigration.Proofs.ParsedNodes

/-!
# Reading from a sound source

A replacement reads the texts of attributes, specifiers and loaders out of the source. None of these reads
fails when every node covers whole characters of the text.
-/
namespace SpaMigration

open Syntax Text

/-- Reading a list one by one yields what reading each element yields. -/
theorem mapM_eq_some_iff {α β : Type} {f : α → Option β} {as : List α} {bs : List β} :
    as.mapM f = some bs ↔ List.Forall₂ (fun a b => f a = some b) as bs := by
  induction as generalizing bs with
  | nil => cases bs <;> simp
  | cons a as ih =>
    cases bs with
    | nil => simp [Option.bind_eq_some_iff]
    | cons b bs => simp [Option.bind_eq_some_iff, ih]

lemma mapM_isSome {α β : Type} {f : α → Option β} {as : List α} (h : ∀ a ∈ as, (f a).isSome) :
    ∃ bs, as.mapM f = some bs := by
  induction as with
  | nil => exact ⟨[], rfl⟩
  | cons a as ih =>
    obtain ⟨b, hb⟩ := Option.isSome_iff_exists.mp (h a List.mem_cons_self)
    obtain ⟨bs, hbs⟩ := ih fun c hc => h c (List.mem_cons_of_mem _ hc)
    exact ⟨b :: bs, by simp [hb, hbs]⟩

lemma exists_of_mem_mapM {α β : Type} {f : α → Option β} {as : List α} {bs : List β}
    (h : as.mapM f = some bs) {b : β} (hb : b ∈ bs) : ∃ a ∈ as, f a = some b := by
  have hall := mapM_eq_some_iff.mp h
  induction hall with
  | nil => simp at hb
  | cons hab _ ih =>
    rcases List.mem_cons.mp hb with rfl | hb
    · exact ⟨_, List.mem_cons_self, hab⟩
    · obtain ⟨a, ha, hab⟩ := ih (mapM_eq_some_iff.mpr ‹_›) hb
      exact ⟨a, List.mem_cons_of_mem _ ha, hab⟩

namespace Source

/-- Every node covers whole characters of the text. -/
def IsSound (source : Source) : Prop := ∀ node ∈ source.nodes, node.span.fits source.text

lemma isSound_of_parse? {text : List Char} {source : Source} (h : parse? text = some source)
    (hmark : text.head? ≠ some '\uFEFF') : source.IsSound :=
  fun _ hnode => fits_of_mem_nodes h hmark hnode

variable {source : Source} (hsound : source.IsSound)
include hsound

lemma textAt?_isSome {node : Node} (hnode : node ∈ source.nodes) : (source.textAt? node.span).isSome :=
  hsound node hnode

lemma spreadText?_isSome {node : Node} (hnode : node ∈ source.nodes) :
    (source.spreadText? node.span).isSome := by
  obtain ⟨hlo, hhi, _⟩ := slice?_isSome_iff.mp (hsound node hnode)
  obtain ⟨atLo, hlo⟩ := Option.isSome_iff_exists.mp (isBoundary_iff_isSome.mp hlo)
  obtain ⟨atHi, hhi⟩ := Option.isSome_iff_exists.mp (isBoundary_iff_isSome.mp hhi)
  obtain ⟨inner, hinner⟩ := Option.isSome_iff_exists.mp (textAt?_isSome hsound hnode)
  simp [spreadText?, hlo, hhi, hinner]

lemma attribute?_isSome {node : Node} (hnode : node ∈ source.nodes) : (source.attribute? node).isSome := by
  have hpart : ∀ part ∈ node.parts, (source.textAt? part.span).isSome := fun part hp =>
    textAt?_isSome hsound (mem_nodes_of_mem_parts hnode hp)
  unfold attribute?
  split
  · rename_i name _ hparts
    obtain ⟨text, htext⟩ := Option.isSome_iff_exists.mp (hpart name (by simp [hparts]))
    simp [htext]
  · rename_i name value rest _ hparts
    obtain ⟨text, htext⟩ := Option.isSome_iff_exists.mp (hpart name (by simp [hparts]))
    obtain ⟨given, hgiven⟩ := Option.isSome_iff_exists.mp (hpart value (by simp [hparts]))
    simp [htext, hgiven]
  · obtain ⟨text, htext⟩ := Option.isSome_iff_exists.mp (spreadText?_isSome hsound hnode)
    simp [htext]

omit hsound in
lemma mem_parts_of_openingOf? {name : String} {element opening : Node}
    (h : openingOf? name element = some opening) : opening ∈ element.parts := by
  unfold openingOf? at h
  split at h
  · rename_i hparts
    split_ifs at h
    cases h
    simp [hparts]
  · cases h

/-- The elements of a name can be read, each with the attributes of its tag. -/
theorem elements?_isSome (name : String) : ∃ elements, source.elements? name = some elements := by
  apply mapM_isSome
  rintro ⟨element, opening⟩ hfound
  obtain ⟨node, hnode, hopening⟩ := List.mem_filterMap.mp hfound
  obtain ⟨tag, htag, hpair⟩ := Option.map_eq_some_iff.mp hopening
  cases hpair
  have htagNode : opening ∈ source.nodes :=
    mem_nodes_of_mem_parts hnode (mem_parts_of_openingOf? htag)
  have hread : ∀ part ∈ opening.parts.filter isAttribute, (source.attribute? part).isSome :=
    fun part hp => attribute?_isSome hsound (mem_nodes_of_mem_parts htagNode (List.mem_of_mem_filter hp))
  obtain ⟨attributes, hattributes⟩ := mapM_isSome hread
  simp [taggedElement?, hattributes]

lemma keptImport?_isSome {declaration : Node} (hnode : declaration ∈ source.nodes) (modulePath : String) :
    ∃ kept, source.keptImport? declaration modulePath = some kept := by
  have hread : ∀ p : Node → Bool, ∃ texts,
      (declaration.parts.filter p).mapM (fun part => source.textAt? part.span) = some texts :=
    fun p => mapM_isSome fun part hp =>
      textAt?_isSome hsound (mem_nodes_of_mem_parts hnode (List.mem_of_mem_filter hp))
  unfold keptImport?
  rw [Option.bind_eq_bind, (hread _).choose_spec, Option.bind_some, (hread _).choose_spec,
    Option.bind_some]
  dsimp only
  split <;> exact ⟨_, rfl⟩

/-- A call of the component can be read with the text of its loader. -/
lemma lazyCall_isSome {call : Node} (hnode : call ∈ source.nodes) :
    (LazyCall.ofNode? source call).isSome := by
  have hvalue : ∀ value, (LazyCall.argumentsOf call).head?.bind LazyCall.plainArgument? = some value →
      (source.textAt? value.span).isSome := by
    intro value hplain
    obtain ⟨argument, hargument, hplain⟩ := Option.bind_eq_some_iff.mp hplain
    have hpart : argument ∈ call.parts :=
      List.mem_of_mem_filter (List.mem_of_mem_head? hargument)
    unfold LazyCall.plainArgument? at hplain
    split at hplain
    · rename_i hparts
      cases hplain
      have hin : value ∈ argument.parts := by simp [hparts]
      exact textAt?_isSome hsound (mem_nodes_of_mem_parts (mem_nodes_of_mem_parts hnode hpart) hin)
    · cases hplain
  unfold LazyCall.ofNode?
  cases hplain : (LazyCall.argumentsOf call).head?.bind LazyCall.plainArgument? with
  | none => simp [hplain]
  | some value =>
    obtain ⟨loader, hloader⟩ := Option.isSome_iff_exists.mp (hvalue value hplain)
    simp [hplain, hloader]

/-- The calls of a name can be read. -/
theorem findAll?_isSome (name : String) : ∃ calls, LazyCall.findAll? source name = some calls :=
  mapM_isSome fun _ hcall => lazyCall_isSome hsound (mem_nodesOf_of_mem_topmostOf _ hcall).1

end Source

end SpaMigration
