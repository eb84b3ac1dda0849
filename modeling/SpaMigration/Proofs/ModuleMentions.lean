import Mathlib.Data.List.Infix
import SpaMigration.Proofs.DanglingUses
import SpaMigration.Proofs.InsertionPlace

/-!
# Mentions of a module

The paths of the framework's modules are made of letters and slashes, and nothing that a replacement writes can
complete one: not a tag, not a call, not a statement. So replacing a component brings no mention of another
one into a text, unless what stands around the removed import joins into one.
-/
namespace SpaMigration

open Syntax Text

namespace Text

/-- A text that ends with a beginning of `part` may be completed by the word, or the word contains `part`. -/
def canComplete (part word : List Char) : Bool :=
  occursIn part word || part.tails.any fun rest => !rest.isEmpty && startsWith word rest

lemma infix_of_append {part a word : List Char} (hword : canComplete part word = false)
    (h : part <:+: a ++ word) : part <:+: a := by
  rw [canComplete, Bool.or_eq_false_iff, ← Bool.not_eq_true, occursIn_iff, List.any_eq_false] at hword
  obtain ⟨hword, htails⟩ := hword
  obtain ⟨u, v, h⟩ := h
  rw [List.append_assoc] at h
  rcases List.append_eq_append_iff.mp h with ⟨behind, rfl, hpart⟩ | ⟨inner, rfl, hpart⟩
  · rcases List.append_eq_append_iff.mp hpart with ⟨rest, rfl, -⟩ | ⟨rest, rfl, hstart⟩
    · exact ⟨u, rest, by rw [List.append_assoc]⟩
    · cases rest with
      | nil => exact ⟨u, [], by simp⟩
      | cons c cs =>
        refine absurd ?_ (htails (c :: cs) ((List.mem_tails _ _).mpr (List.suffix_append _ _)))
        rw [Bool.and_eq_true, startsWith_iff]
        exact ⟨rfl, v, hstart.symm⟩
  · exact absurd ⟨inner, v, by rw [List.append_assoc, hpart]⟩ hword

lemma infix_around {before middle after start ending : List Char} (hstart : start <:+ before)
    (hending : ending <+: after) : start ++ middle ++ ending <:+: before ++ middle ++ after := by
  obtain ⟨front, rfl⟩ := hstart
  obtain ⟨rest, rfl⟩ := hending
  exact ⟨front, rest, by simp only [List.append_assoc]⟩

end Text

namespace LegacyComponent

/-- A character of which the paths of modules are made. -/
def isPathChar (c : Char) : Bool := c.isAlpha || c == '/'

lemma isPathChar_of_mem {component : LegacyComponent} :
    ∀ c ∈ component.modulePath.toList, isPathChar c = true := by
  have hall : component.modulePath.toList.all isPathChar = true := by
    cases component <;> decide
  exact List.all_eq_true.mp hall

/-- The path of the component's module occurs in the text. -/
abbrev IsMentioned (component : LegacyComponent) (text : List Char) : Prop :=
  component.modulePath.toList <:+: text

variable {component : LegacyComponent} {a b text : List Char}

lemma not_isMentioned_of_part (h : ¬ component.IsMentioned b) (hab : a <:+: b) : ¬ component.IsMentioned a :=
  fun hmention => h (hmention.trans hab)

lemma not_isMentioned_nil : ¬ component.IsMentioned [] := by cases component <;> decide

lemma isMentioned_append_cons_iff {c : Char} (hc : isPathChar c = false) :
    component.IsMentioned (a ++ c :: b) ↔ component.IsMentioned a ∨ component.IsMentioned b :=
  infix_append_cons_iff fun hmem => by simp [isPathChar_of_mem c hmem] at hc

lemma isMentioned_cons_iff {c : Char} (hc : isPathChar c = false) :
    component.IsMentioned (c :: b) ↔ component.IsMentioned b := by
  have h : component.IsMentioned ([] ++ c :: b) ↔ _ := isMentioned_append_cons_iff hc
  rwa [List.nil_append, or_iff_right not_isMentioned_nil] at h

lemma not_isMentioned_append_cons {c : Char} (hc : isPathChar c = false) (ha : ¬ component.IsMentioned a)
    (hb : ¬ component.IsMentioned b) : ¬ component.IsMentioned (a ++ c :: b) :=
  mt (isMentioned_append_cons_iff hc).mp (not_or.mpr ⟨ha, hb⟩)

lemma not_isMentioned_cons {c : Char} (hc : isPathChar c = false) (hb : ¬ component.IsMentioned b) :
    ¬ component.IsMentioned (c :: b) :=
  mt (isMentioned_cons_iff hc).mp hb

/-- Texts behind separators mention nothing that none of them mentions. -/
lemma not_isMentioned_flatMap {c : Char} (hc : isPathChar c = false) {items : List (List Char)}
    (ha : ¬ component.IsMentioned a) (hitems : ∀ item ∈ items, ¬ component.IsMentioned item) :
    ¬ component.IsMentioned (a ++ items.flatMap (c :: ·)) := by
  induction items generalizing a with
  | nil => simpa using ha
  | cons item rest ih =>
    obtain ⟨hitem, hrest⟩ := List.forall_mem_cons.mp hitems
    rw [List.flatMap_cons, List.cons_append]
    exact not_isMentioned_append_cons hc ha (ih hitem hrest)

/-- The text makes no mention of the component together with what stands around it. -/
def Seals (component : LegacyComponent) (text : List Char) : Prop :=
  ∀ a b, component.IsMentioned (a ++ text ++ b) → component.IsMentioned a ∨ component.IsMentioned b

/-- What stands between two characters that no path has is sealed, if it mentions nothing; so is a word in
front that completes no path. -/
lemma seals_of_framed {word inner : List Char} {c d : Char}
    (hword : canComplete component.modulePath.toList word = false) (hc : isPathChar c = false)
    (hd : isPathChar d = false) (hinner : ¬ component.IsMentioned inner) :
    component.Seals (word ++ c :: (inner ++ [d])) := by
  intro a b h
  have hsplit : a ++ (word ++ c :: (inner ++ [d])) ++ b = (a ++ word) ++ c :: (inner ++ d :: b) := by simp
  rw [hsplit, isMentioned_append_cons_iff hc, isMentioned_append_cons_iff hd] at h
  rcases h with h | h | h
  · exact .inl (infix_of_append hword h)
  · exact absurd h hinner
  · exact .inr h

/-- Neither a letter nor a slash stands directly in front of a place of the text. -/
def standsFree (text : List Char) (place : Nat) : Bool :=
  (splitAtByte? place text).all fun parts => parts.1.getLast?.all fun c => !isPathChar c

end LegacyComponent

open LegacyComponent

/-- Splicing makes no mention of a component where the stretches that are kept have none, the new texts are
sealed, and what is removed stands free. -/
theorem Edit.Spliced.not_isMentioned {component : LegacyComponent} {place : Nat} {edits : List Edit}
    {rest result : List Char} (h : Edit.Spliced place rest edits result) {text front : List Char}
    (htext : text = front ++ rest) (hplace : byteSize front = place)
    (hkept : ∀ a piece b, text = a ++ piece ++ b → place ≤ byteSize a →
      (∀ edit ∈ edits, edit.hi ≤ byteSize a ∨ byteSize (a ++ piece) ≤ edit.lo) →
      ¬ component.IsMentioned piece)
    (hedits : ∀ edit ∈ edits,
      component.Seals edit.text ∨ edit.text = [] ∧ standsFree text edit.lo = true) :
    ¬ component.IsMentioned result := by
  induction h generalizing front with
  | done place rest => exact hkept front rest [] (by simpa using htext) hplace.ge (by simp)
  | replace kept cut hlo hhi hrest ih =>
    rename_i place edit edits rest result
    obtain ⟨hranges, -⟩ := hrest.ranges
    have hpiece : ¬ component.IsMentioned kept := by
      refine hkept front kept (cut ++ rest) (by simpa using htext) hplace.ge fun other ho => .inr ?_
      rw [byteSize_append, hplace, ← hlo]
      rcases List.mem_cons.mp ho with rfl | ho
      · rfl
      · have := (hranges other ho).1
        omega
    have htail : ¬ component.IsMentioned result := by
      have hbehind : text = (front ++ kept ++ cut) ++ rest := by simpa using htext
      refine ih hbehind ?_ ?_ fun other ho => hedits other (List.mem_cons_of_mem _ ho)
      · simp only [byteSize_append]
        omega
      · intro a piece b hsplit hle hapart
        refine hkept a piece b hsplit (by omega) fun other ho => ?_
        rcases List.mem_cons.mp ho with rfl | ho
        · exact .inl hle
        · exact hapart other ho
    rcases hedits edit List.mem_cons_self with hseals | ⟨hempty, hfree⟩
    · exact fun hmention => (hseals kept result hmention).elim hpiece htail
    · rw [hempty, List.append_nil]
      cases kept using List.reverseRecOn with
      | nil => exact htail
      | append_singleton kept c =>
        have hcut : splitAtByte? edit.lo text = some (front ++ (kept ++ [c]), cut ++ rest) :=
          splitAtByte?_eq_some_iff.mpr ⟨by simpa using htext, by rw [byteSize_append]; omega⟩
        have hc : isPathChar c = false := by
          rw [standsFree, hcut, ← List.append_assoc] at hfree
          simpa using hfree
        rw [List.append_assoc, List.singleton_append, isMentioned_append_cons_iff hc]
        rintro (hmention | hmention)
        · exact hpiece (hmention.trans (List.prefix_append _ _).isInfix)
        · exact htail hmention

/-- Neither the name nor the value of the attribute mentions the component. -/
def TagAttribute.Avoids (component : LegacyComponent) (a : TagAttribute) : Prop :=
  ¬ component.IsMentioned a.name.toList ∧
    ∀ value, a.value = some value → ¬ component.IsMentioned value.toList

/-- The change makes attributes that avoid the component from ones that do. -/
def TagChange.Avoids (component : LegacyComponent) (change : TagChange) : Prop :=
  ∀ attributes, (∀ a ∈ attributes, a.Avoids component) → ∀ a ∈ (change attributes).1, a.Avoids component

namespace TagChange

variable {component : LegacyComponent}

lemma avoids_keep : keep.Avoids component := fun _ h => h

lemma avoids_sequence {changes : List TagChange} (h : ∀ change ∈ changes, change.Avoids component) :
    (sequence changes).Avoids component := by
  induction changes with
  | nil => exact avoids_keep
  | cons change rest ih =>
    obtain ⟨hchange, hrest⟩ := List.forall_mem_cons.mp h
    exact fun attributes ha => ih hrest _ (hchange attributes ha)

variable {attributes : Attributes} (h : ∀ a ∈ attributes, a.Avoids component)
include h

lemma avoids_erase (name : String) : ∀ a ∈ attributes.erase name, a.Avoids component :=
  fun a ha => h a (List.mem_of_mem_eraseP ha)

lemma avoids_get? {name : String} {a : TagAttribute} (ha : attributes.get? name = some a) :
    a.Avoids component :=
  h a (List.mem_of_find?_eq_some ha)

lemma avoids_concat {a : TagAttribute} (ha : a.Avoids component) :
    ∀ b ∈ attributes ++ [a], b.Avoids component :=
  List.forall_mem_append.mpr ⟨h, List.forall_mem_singleton.mpr ha⟩

omit h

lemma avoids_drop (name : String) (warnings : List String) : (drop name warnings).Avoids component := by
  intro attributes h
  unfold drop
  split_ifs
  · exact avoids_erase h name
  · exact h

/-- A name without a value, if it does not mention the component. -/
lemma avoids_flag {name : String} (hname : ¬ component.IsMentioned name.toList) :
    (⟨name, none⟩ : TagAttribute).Avoids component :=
  ⟨hname, fun _ hvalue => by cases hvalue⟩

lemma avoids_layout {mapped : String} (hmapped : mapped = "fullWidth" ∨ mapped = "constrained" ∨ mapped = "fixed") :
    (⟨"layout", some ("\"" ++ mapped ++ "\"")⟩ : TagAttribute).Avoids component := by
  have hname : ¬ component.IsMentioned "layout".toList := by cases component <;> decide
  refine ⟨hname, fun value hvalue => ?_⟩
  cases hvalue
  rcases hmapped with rfl | rfl | rfl <;> cases component <;> decide

lemma mappedLayout?_cases {given mapped : String} (h : Image.mappedLayout? given = some mapped) :
    mapped = "fullWidth" ∨ mapped = "constrained" ∨ mapped = "fixed" := by
  unfold Image.mappedLayout? at h
  split at h <;> cases h <;> simp

lemma avoids_image : image.Avoids component := by
  refine avoids_sequence fun change hchange => ?_
  simp only [List.cons_append, List.nil_append, List.mem_cons, List.mem_append, List.mem_map,
    List.not_mem_nil, or_false] at hchange
  rcases hchange with rfl | rfl | rfl | ⟨name, -, rfl⟩ | rfl
  · intro attributes h
    unfold Image.fill
    split
    · split_ifs
      · exact avoids_concat (avoids_erase h "fill") (avoids_layout (.inl rfl))
      · exact avoids_erase h "fill"
    · exact h
  · intro attributes h
    unfold Image.layout
    split
    · rename_i given hgiven
      dsimp only
      split
      · rename_i mapped hmapped
        obtain ⟨name, -, hmapped⟩ := Option.bind_eq_some_iff.mp hmapped
        exact avoids_concat (avoids_erase h "layout") (avoids_layout (mappedLayout?_cases hmapped))
      · exact avoids_concat (avoids_erase h "layout") (avoids_get? h hgiven)
    · exact h
  · exact fun attributes h => avoids_erase (avoids_erase h "placeholder") "blurDataURL"
  · exact avoids_drop _ _
  · intro attributes h
    unfold Image.sizeCheck
    dsimp only
    split_ifs <;> exact h

lemma avoids_link : link.Avoids component := by
  refine avoids_sequence fun change hchange => ?_
  simp only [List.mem_cons, List.not_mem_nil, or_false] at hchange
  rcases hchange with rfl | rfl | rfl | rfl | rfl | rfl | rfl | rfl
  · intro attributes h
    unfold Link.href
    split
    · rename_i given hgiven
      have hname : ¬ component.IsMentioned "to".toList := by cases component <;> decide
      exact List.forall_mem_cons.mpr ⟨⟨hname, (avoids_get? h hgiven).2⟩, avoids_erase h "href"⟩
    · exact h
  · exact avoids_drop _ _
  · intro attributes h
    unfold Link.scroll
    split
    · dsimp only
      split_ifs
      · exact avoids_concat (avoids_erase h "scroll") (avoids_flag (by cases component <;> decide))
      · exact avoids_erase h "scroll"
    · exact h
  all_goals exact avoids_drop _ _

lemma avoids_script : script.Avoids component := by
  refine avoids_sequence fun change hchange => ?_
  rcases List.mem_cons.mp hchange with rfl | hchange
  · intro attributes h
    have hothers := avoids_erase h "strategy"
    have hasync : (⟨"async", none⟩ : TagAttribute).Avoids component :=
      avoids_flag (by cases component <;> decide)
    have hdefer : (⟨"defer", none⟩ : TagAttribute).Avoids component :=
      avoids_flag (by cases component <;> decide)
    unfold Script.strategy
    split
    · dsimp only
      split
      · exact hothers
      · exact avoids_concat hothers hdefer
      · exact avoids_concat hothers hasync
      · exact avoids_concat hothers hasync
    · split_ifs
      · exact avoids_concat h hasync
      · exact h
  · obtain ⟨handler, -, rfl⟩ := List.mem_map.mp hchange
    exact avoids_drop _ _

end TagChange

lemma LegacyComponent.avoids_tagChange (component other : LegacyComponent) :
    other.tagChange.Avoids component := by
  cases other with
  | image => exact TagChange.avoids_image
  | link => exact TagChange.avoids_link
  | script => exact TagChange.avoids_script
  | head | dynamic => exact TagChange.avoids_keep

namespace Source

variable {component : LegacyComponent} {source : Source}

lemma infix_of_textAt? {span : Span} {part : List Char} (h : source.textAt? span = some part) :
    part <:+: source.text := by
  obtain ⟨before, after, hsplit, -, -⟩ := slice?_eq_some_iff.mp h
  exact ⟨before, after, hsplit.symm⟩

/-- A spread is read with what stands around it up to its braces. -/
lemma infix_of_spreadText? {span : Span} {part : List Char} (h : source.spreadText? span = some part) :
    part <:+: source.text := by
  simp only [spreadText?, Option.bind_eq_bind, Option.bind_eq_some_iff, Option.pure_def, Option.some.injEq,
    Prod.exists] at h
  obtain ⟨before, _, hbefore, inner, hinner, _, after, hafter, rfl⟩ := h
  obtain ⟨before', after', hsplit, hlo, hhi⟩ := slice?_eq_some_iff.mp hinner
  obtain rfl : before = before' := by
    cases hbefore.symm.trans
      (splitAtByte?_eq_some_iff.mpr ⟨hsplit.trans (List.append_assoc _ _ _), hlo⟩)
    rfl
  obtain rfl : after = after' := by
    cases hafter.symm.trans (splitAtByte?_eq_some_iff.mpr ⟨hsplit, hhi⟩)
    rfl
  rw [hsplit]
  refine infix_around ?start ?ending
  case start =>
    split
    · rename_i front tail hlast
      exact ⟨front, (splitLast?_eq_some hlast).symm⟩
    · exact List.nil_suffix
  case ending =>
    split
    · exact List.nil_prefix
    · rename_i hne
      cases hdrop : after.dropWhile (· != '\x7d') with
      | nil => exact absurd hdrop hne
      | cons c rest =>
        obtain rfl : c = '\x7d' := by
          simpa [hdrop] using List.head_dropWhile_not (· != '\x7d') (l := after) (by simp [hdrop])
        refine ⟨rest, ?_⟩
        rw [List.append_assoc, List.singleton_append, ← hdrop, List.takeWhile_append_dropWhile]

variable (hnone : ¬ component.IsMentioned source.text)
include hnone

lemma avoids_of_attribute? {node : Node} {a : TagAttribute} (h : source.attribute? node = some a) :
    a.Avoids component := by
  have hpart : ∀ {span : Span} {part : List Char}, source.textAt? span = some part →
      ¬ component.IsMentioned part := fun hread => not_isMentioned_of_part hnone (infix_of_textAt? hread)
  unfold attribute? at h
  split at h
  · obtain ⟨name, hname, hread⟩ := Option.bind_eq_some_iff.mp h
    cases hread
    exact TagChange.avoids_flag (by simpa using hpart hname)
  · obtain ⟨name, hname, h⟩ := Option.bind_eq_some_iff.mp h
    obtain ⟨value, hvalue, hread⟩ := Option.bind_eq_some_iff.mp h
    cases hread
    refine ⟨by simpa using hpart hname, fun given hgiven => ?_⟩
    cases hgiven
    simpa using hpart hvalue
  · obtain ⟨name, hname, hread⟩ := Option.bind_eq_some_iff.mp h
    cases hread
    refine TagChange.avoids_flag ?_
    rw [String.toList_ofList]
    exact not_isMentioned_of_part hnone (infix_of_spreadText? hname)

end Source

lemma TagAttribute.Avoids.render {component : LegacyComponent} {a : TagAttribute}
    (h : a.Avoids component) : ¬ component.IsMentioned a.render.toList := by
  unfold TagAttribute.render
  split
  · rename_i value hvalue
    have hrender : (a.name ++ "=" ++ value).toList = a.name.toList ++ '=' :: value.toList := by simp
    rw [hrender]
    exact not_isMentioned_append_cons (by decide) h.1 (h.2 value hvalue)
  · exact h.1

namespace LegacyComponent

open TaggedElement

variable {component other : LegacyComponent}

lemma canComplete_nil : canComplete component.modulePath.toList [] = false := by
  cases component <;> decide

lemma not_isMentioned_replacementName (component other : LegacyComponent) :
    ¬ component.IsMentioned other.replacementName.toList := by
  cases component <;> cases other <;> decide

/-- A tag with its angle brackets. -/
lemma toList_render (tag : OpeningTag) (name : String) : (tag.render name).toList = '<' ::
    ((name.toList ++ (tag.attributes.map (·.render.toList)).flatMap (' ' :: ·)
      ++ if tag.selfClosing then [' ', '/'] else []) ++ ['>']) := by
  simp only [OpeningTag.render, String.toList_append, String.toList_join, List.flatMap_map]
  cases tag.selfClosing <;> simp

lemma not_isMentioned_render {tag : OpeningTag} (h : ∀ a ∈ tag.attributes, a.Avoids component) :
    ¬ component.IsMentioned (tag.render other.replacementName).toList := by
  have hitems : ∀ item ∈ tag.attributes.map (·.render.toList), ¬ component.IsMentioned item := by
    intro item hitem
    obtain ⟨a, ha, rfl⟩ := List.mem_map.mp hitem
    exact (h a ha).render
  have hblank : isPathChar ' ' = false := by decide
  have hinner := not_isMentioned_flatMap hblank (not_isMentioned_replacementName component other) hitems
  rw [toList_render]
  refine not_isMentioned_cons (by decide) (not_isMentioned_append_cons (by decide) ?_ not_isMentioned_nil)
  cases tag.selfClosing with
  | false => simpa using hinner
  | true =>
    have hslash : ¬ component.IsMentioned ['/'] := by cases component <;> decide
    exact not_isMentioned_append_cons hblank hinner hslash

lemma not_isMentioned_joinWith {items : List (List Char)}
    (h : ∀ item ∈ items, ¬ component.IsMentioned item) :
    ¬ component.IsMentioned (joinWith [',', ' '] items) := by
  cases items with
  | nil => exact not_isMentioned_nil
  | cons first rest =>
    obtain ⟨hfirst, hrest⟩ := List.forall_mem_cons.mp h
    have hitems : ∀ item ∈ rest.map (' ' :: ·), ¬ component.IsMentioned item := by
      intro item hitem
      obtain ⟨name, hname, rfl⟩ := List.mem_map.mp hitem
      exact not_isMentioned_cons (by decide) (hrest name hname)
    have hlist := not_isMentioned_flatMap (c := ',') (by decide) hfirst hitems
    rw [joinWith_cons]
    simpa [List.flatMap_map] using hlist

/-- A statement that imports from the module of another component. -/
lemma seals_statement (hne : component ≠ other) {body : List Char} (hbody : ¬ component.IsMentioned body)
    (typeOnly : Bool) :
    component.Seals ((if typeOnly then "import type " else "import ").toList ++ body ++
      (" from '" ++ other.modulePath ++ "';").toList) := by
  have hword : canComplete component.modulePath.toList "import".toList = false := by
    cases component <;> decide
  have hpath : ¬ component.IsMentioned other.modulePath.toList := by
    revert hne
    cases component <;> cases other <;> decide
  have htype : ¬ component.IsMentioned "type".toList := by cases component <;> decide
  have hfrom : ¬ component.IsMentioned "from".toList := by cases component <;> decide
  have hblank : isPathChar ' ' = false := by decide
  have hquote : isPathChar '\'' = false := by decide
  have hsource : ¬ component.IsMentioned (other.modulePath.toList ++ '\'' :: []) :=
    not_isMentioned_append_cons hquote hpath not_isMentioned_nil
  have hinner : ¬ component.IsMentioned
      (body ++ ' ' :: ("from".toList ++ ' ' :: '\'' :: (other.modulePath.toList ++ '\'' :: []))) :=
    not_isMentioned_append_cons hblank hbody
      (not_isMentioned_append_cons hblank hfrom (not_isMentioned_cons hquote hsource))
  cases typeOnly with
  | false =>
    have hseals := seals_of_framed (d := ';') hword hblank (by decide) hinner
    simpa using hseals
  | true =>
    have hseals := seals_of_framed (d := ';') hword hblank (by decide)
      (not_isMentioned_append_cons hblank htype hinner)
    simpa using hseals

/-- What is kept of an import of another component is sealed. -/
lemma seals_of_keptImport? {source : Source} {declaration : Node} {statement : String}
    (hne : component ≠ other) (hnone : ¬ component.IsMentioned source.text)
    (h : source.keptImport? declaration other.modulePath = some (some statement)) :
    component.Seals statement.toList := by
  have hread : ∀ {parts : List Node} {texts : List (List Char)},
      parts.mapM (fun part => source.textAt? part.span) = some texts →
      ∀ text ∈ texts, ¬ component.IsMentioned text := by
    intro parts texts hparts text htext
    obtain ⟨part, -, hpart⟩ := exists_of_mem_mapM hparts htext
    exact not_isMentioned_of_part hnone (Source.infix_of_textAt? hpart)
  unfold Source.keptImport? at h
  obtain ⟨namespaces, hnamespaces, h⟩ := Option.bind_eq_some_iff.mp h
  obtain ⟨named, hnamed, h⟩ := Option.bind_eq_some_iff.mp h
  cases hlast : namespaces.getLast? with
  | some found =>
    rw [hlast] at h
    cases h
    have hfound := hread hnamespaces found (List.mem_of_getLast? hlast)
    have hseals := seals_statement hne hfound (declaration.kind == .importDeclaration true)
    simpa using hseals
  | none =>
    rw [hlast] at h
    cases named with
    | nil => cases h
    | cons first rest =>
      cases h
      have hblank : isPathChar ' ' = false := by decide
      have hbraces : ¬ component.IsMentioned
          ('\x7b' :: ' ' :: (joinWith [',', ' '] (first :: rest) ++ ' ' :: '\x7d' :: [])) :=
        not_isMentioned_cons (by decide) <| not_isMentioned_cons hblank <|
          not_isMentioned_append_cons hblank (not_isMentioned_joinWith (hread hnamed)) <|
            not_isMentioned_cons (by decide) not_isMentioned_nil
      have hseals := seals_statement hne hbraces (declaration.kind == .importDeclaration true)
      simpa using hseals

lemma infix_of_loader {source : Source} {node : Node} {call : LazyCall} {loader : List Char}
    (h : LazyCall.ofNode? source node = some call) (hloader : call.loader = some loader) :
    loader <:+: source.text := by
  unfold LazyCall.ofNode? at h
  dsimp only at h
  split at h
  · obtain ⟨found, hfound, hcall⟩ := Option.bind_eq_some_iff.mp h
    cases hcall
    obtain ⟨text, htext, rfl⟩ := Option.map_eq_some_iff.mp hfound
    cases hloader
    exact Source.infix_of_textAt? htext
  · obtain ⟨found, hfound, hcall⟩ := Option.bind_eq_some_iff.mp h
    cases hcall
    cases hfound
    cases hloader

/-- What replaces a use mentions the component only if the text does. -/
lemma UseEdit.not_isMentioned {source : Source} {name : String} {edit : Edit}
    (h : UseEdit other source name edit) (hnone : ¬ component.IsMentioned source.text) :
    ¬ component.IsMentioned edit.text := by
  cases h with
  | opening _ _ _ helement =>
    refine not_isMentioned_render (avoids_tagChange component other _ fun a ha => ?_)
    obtain ⟨part, -, hpart⟩ := exists_of_mem_mapM helement.attributes ha
    exact Source.avoids_of_attribute? hnone hpart
  | closing =>
    simp only [closingEdit]
    cases component <;> cases other <;> decide
  | call _ _ _ hcall hloader =>
    have hlazy : ¬ component.IsMentioned "lazy".toList := by cases component <;> decide
    have hinner := not_isMentioned_of_part hnone (infix_of_loader hcall hloader)
    exact not_isMentioned_append_cons (c := '(') (by decide) hlazy
      (not_isMentioned_append_cons (by decide) hinner not_isMentioned_nil)

/-- What replaces a use is framed by brackets. -/
lemma UseEdit.seals {source : Source} {name : String} {edit : Edit} (h : UseEdit other source name edit)
    (hnone : ¬ component.IsMentioned edit.text) : component.Seals edit.text := by
  have hbracket : isPathChar '<' = false ∧ isPathChar '>' = false ∧ isPathChar '(' = false ∧
      isPathChar ')' = false := by decide
  obtain ⟨hless, hgreater, hleft, hright⟩ := hbracket
  cases h with
  | opening _ _ _ helement =>
    simp only [openingEdit, toList_render] at hnone ⊢
    exact seals_of_framed canComplete_nil hless hgreater
      (not_isMentioned_of_part hnone ⟨['<'], ['>'], rfl⟩)
  | closing =>
    have hclosing : ("</" ++ other.replacementName ++ ">").toList =
        '<' :: ('/' :: other.replacementName.toList ++ ['>']) := by simp
    simp only [closingEdit, hclosing] at hnone ⊢
    exact seals_of_framed canComplete_nil hless hgreater
      (not_isMentioned_of_part hnone ⟨['<'], ['>'], rfl⟩)
  | call =>
    have hword : canComplete component.modulePath.toList "lazy".toList = false := by
      cases component <;> decide
    exact seals_of_framed hword hleft hright
      (not_isMentioned_of_part hnone ⟨"lazy(".toList, [')'], rfl⟩)

end LegacyComponent

end SpaMigration
