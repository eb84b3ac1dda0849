import Mathlib.Data.List.Count
import Mathlib.Data.List.Nodup
import SpaMigration.Component.Replace

/-!
# Attributes after a change

What becomes of the attributes of a replaced element is put together from few steps: the first attribute of a
name goes, and attributes of certain names are put in front or at the end. So attributes with other names
stay as they are, spreads among them, and names that are distinct stay distinct exactly when none of those
that are put in is there already.
-/
namespace SpaMigration

namespace Attributes

variable {attributes : Attributes} {name : String}

/-- The names of the attributes in their order. -/
def names (attributes : Attributes) : List String := attributes.map (·.name)

/-- The attributes whose names are not in a list. -/
def outside (attributes : Attributes) (translated : List String) : Attributes :=
  attributes.filter fun a => !translated.contains a.name

/-- The attributes without the first one of each name in a list. -/
def eraseAll (attributes : Attributes) (dropped : List String) : Attributes :=
  dropped.foldl erase attributes

/-- No two attributes have the same name, spreads left aside. -/
def HasDistinctNames (attributes : Attributes) : Prop :=
  (names (attributes.filter fun a => !a.isSpread)).Nodup

instance (attributes : Attributes) : Decidable attributes.HasDistinctNames :=
  inferInstanceAs (Decidable (List.Nodup _))

@[simp] lemma names_append (attributes others : Attributes) :
    names (attributes ++ others) = names attributes ++ names others := List.map_append

lemma has_iff : attributes.has name = true ↔ name ∈ attributes.names := by
  simp [has, get?, names]

lemma name_of_get? {a : TagAttribute} (h : attributes.get? name = some a) : a.name = name := by
  simpa using List.find?_some h

lemma has_of_get? {a : TagAttribute} (h : attributes.get? name = some a) : attributes.has name = true := by
  simp [has, h]

@[simp] lemma names_erase (attributes : Attributes) (name : String) :
    names (attributes.erase name) = (names attributes).erase name := by
  rw [names, names, List.erase_eq_eraseP', List.eraseP_map]
  rfl

/-- Without an attribute of the name there is nothing to drop. -/
lemma erase_of_get?_eq_none (h : attributes.get? name = none) : attributes.erase name = attributes :=
  List.eraseP_of_forall_not (List.find?_eq_none.mp h)

@[simp] lemma names_eraseAll (attributes : Attributes) (dropped : List String) :
    names (attributes.eraseAll dropped) = (names attributes).diff dropped := by
  induction dropped generalizing attributes with
  | nil => rfl
  | cons first rest ih =>
    rw [List.diff_cons, ← names_erase]
    exact ih _

/-- The first attribute with a name is the same after another name has been dropped. -/
lemma get?_erase_of_ne (attributes : Attributes) {name other : String} (hne : name ≠ other) :
    (attributes.erase other).get? name = attributes.get? name := by
  induction attributes with
  | nil => rfl
  | cons a rest ih =>
    by_cases hother : a.name = other
    · have hname : (a.name == name) = false := by simpa [hother] using Ne.symm hne
      simp [erase, get?, hother, hother ▸ hname]
    · simp only [erase, get?] at ih ⊢
      rw [List.eraseP_cons_of_neg (by simpa using hother), List.find?_cons, List.find?_cons, ih]

variable {translated : List String}

lemma outside_append (attributes others : Attributes) (translated : List String) :
    (attributes ++ others).outside translated = attributes.outside translated ++ others.outside translated :=
  List.filter_append ..

lemma outside_eq_nil (h : ∀ given ∈ attributes.names, given ∈ translated) :
    attributes.outside translated = [] := by
  refine List.filter_eq_nil_iff.mpr fun a ha => ?_
  simpa using h a.name (List.mem_map_of_mem ha)

/-- An attribute that is dropped is none of the others. -/
lemma outside_erase (h : name ∈ translated) :
    (attributes.erase name).outside translated = attributes.outside translated := by
  have hcases := List.exists_or_eq_self_of_eraseP (·.name == name) attributes
  obtain hsame | ⟨a, front, back, -, ha, hsplit, herased⟩ := hcases
  · rw [erase, hsame]
  · have hdropped : (!translated.contains a.name) = false := by simpa [beq_iff_eq.mp ha] using h
    rw [erase, herased, hsplit, outside_append, outside_append]
    simp only [outside, List.filter_cons, hdropped, Bool.false_eq_true, if_false]

lemma outside_eraseAll {dropped : List String} (h : ∀ name ∈ dropped, name ∈ translated) :
    (attributes.eraseAll dropped).outside translated = attributes.outside translated := by
  induction dropped generalizing attributes with
  | nil => rfl
  | cons first rest ih =>
    obtain ⟨hfirst, hrest⟩ := List.forall_mem_cons.mp h
    exact (ih hrest).trans (outside_erase hfirst)

/-- The first attribute of a name went, and attributes of other names came, in front or at the end. -/
def Swapped (attributes : Attributes) (dropped : String) (added : List String) (changed : Attributes) :
    Prop :=
  ∃ front back : Attributes, changed = front ++ attributes.erase dropped ++ back ∧
    front.names ++ back.names = added

lemma swapped_erase (attributes : Attributes) (dropped : String) :
    attributes.Swapped dropped [] (attributes.erase dropped) :=
  ⟨[], [], (List.append_nil _).symm, rfl⟩

lemma swapped_concat (attributes : Attributes) (dropped : String) (a : TagAttribute) :
    attributes.Swapped dropped [a.name] (attributes.erase dropped ++ [a]) :=
  ⟨[], [a], rfl, rfl⟩

lemma swapped_of_get?_eq_none (h : attributes.get? name = none) : attributes.Swapped name [] attributes :=
  ⟨[], [], by rw [erase_of_get?_eq_none h, List.nil_append, List.append_nil], rfl⟩

lemma Swapped.outside_eq {dropped : String} {added : List String} {changed : Attributes}
    (h : attributes.Swapped dropped added changed) (hdropped : dropped ∈ translated)
    (hadded : ∀ given ∈ added, given ∈ translated) :
    changed.outside translated = attributes.outside translated := by
  obtain ⟨front, back, rfl, rfl⟩ := h
  obtain ⟨hfront, hback⟩ := List.forall_mem_append.mp hadded
  rw [outside_append, outside_append, outside_eq_nil hfront, outside_eq_nil hback, outside_erase hdropped,
    List.nil_append, List.append_nil]

lemma Swapped.count_names {dropped : String} {added : List String} {changed : Attributes}
    (h : attributes.Swapped dropped added changed) (name : String) :
    changed.names.count name = (attributes.names.erase dropped).count name + added.count name := by
  obtain ⟨front, back, rfl, rfl⟩ := h
  simp only [names_append, names_erase, List.count_append]
  omega

lemma get?_eq_none_of_notMem (h : name ∉ attributes.names) : attributes.get? name = none :=
  List.find?_eq_none.mpr fun _ ha hname => h (beq_iff_eq.mp hname ▸ List.mem_map_of_mem ha)

/-- Attributes of names that neither went nor came are found as before. -/
lemma Swapped.get?_of_ne {dropped : String} {added : List String} {changed : Attributes}
    (h : attributes.Swapped dropped added changed) (hne : name ≠ dropped) (hnew : name ∉ added) :
    changed.get? name = attributes.get? name := by
  obtain ⟨front, back, rfl, rfl⟩ := h
  obtain ⟨hfront, hback⟩ := not_or.mp (List.mem_append.not.mp hnew)
  have hold := get?_erase_of_ne attributes hne
  have hnone := get?_eq_none_of_notMem hfront
  have hnone' := get?_eq_none_of_notMem hback
  simp only [get?] at hold hnone hnone' ⊢
  rw [List.find?_append, List.find?_append, hold, hnone, hnone', Option.none_or, Option.or_none]

/-- Names are distinct when each of them that is no spread occurs at most once. -/
lemma hasDistinctNames_iff : attributes.HasDistinctNames ↔
    ∀ name : String, name.toList.head? ≠ some '\x7b' → attributes.names.count name ≤ 1 := by
  have hfilter : names (attributes.filter fun a => !a.isSpread) =
      attributes.names.filter fun name => !(name.toList.head? == some '\x7b') := by
    rw [names, names, List.filter_map]
    rfl
  rw [HasDistinctNames, hfilter, List.nodup_iff_count_le_one]
  refine forall_congr' fun name => ?_
  by_cases hspread : name.toList.head? = some '\x7b'
  · have hnone : (attributes.names.filter fun name => !(name.toList.head? == some '\x7b')).count name = 0 :=
      List.count_eq_zero.mpr fun hmem => by simpa [hspread] using List.of_mem_filter hmem
    exact iff_of_true (by omega) fun hplain => absurd hspread hplain
  · rw [List.count_filter (by simpa using hspread)]
    exact ⟨fun h _ => h, fun h => h hspread⟩

end Attributes

open Attributes

namespace TagChange

lemma drop_fst (name : String) (warnings : List String) (attributes : Attributes) :
    (drop name warnings attributes).1 = attributes.erase name := by
  unfold drop
  split_ifs with hhas
  · rfl
  · exact (erase_of_get?_eq_none (by simpa [has] using hhas)).symm

lemma sequence_append_fst (front back : List TagChange) (attributes : Attributes) :
    (sequence (front ++ back) attributes).1 = (sequence back (sequence front attributes).1).1 := by
  induction front generalizing attributes with
  | nil => rfl
  | cons change rest ih => exact ih _

/-- Dropping names one after another, whatever the warnings. -/
lemma sequence_drops_fst (dropped : List String) (warnings : String → List String)
    (attributes : Attributes) :
    (sequence (dropped.map fun name => drop name (warnings name)) attributes).1 =
      attributes.eraseAll dropped := by
  induction dropped generalizing attributes with
  | nil => rfl
  | cons name rest ih =>
    rw [eraseAll, List.foldl_cons, ← drop_fst name (warnings name)]
    exact ih _

namespace Image

/-- The image is to fill its parent. -/
def isFilling (attributes : Attributes) : Bool := (attributes.get? "fill").any (·.isTruthyFlag)

lemma fill_swapped (attributes : Attributes) :
    attributes.Swapped "fill" (if isFilling attributes then ["layout"] else []) (fill attributes).1 := by
  unfold fill isFilling
  cases hfill : attributes.get? "fill" with
  | none => exact swapped_of_get?_eq_none hfill
  | some flag =>
    simp only [Option.any_some]
    split_ifs
    · exact swapped_concat attributes "fill" _
    · exact swapped_erase attributes "fill"

/-- A layout moves to the end under its name. -/
lemma layout_swapped (attributes : Attributes) : attributes.Swapped "layout"
    (if attributes.has "layout" then ["layout"] else []) (layout attributes).1 := by
  unfold layout
  cases hlayout : attributes.get? "layout" with
  | none => simpa [has, hlayout] using swapped_of_get?_eq_none hlayout
  | some given =>
    simp only [has_of_get? hlayout, if_true]
    split
    · exact swapped_concat attributes "layout" _
    · have hgiven := swapped_concat attributes "layout" given
      rwa [name_of_get? hlayout] at hgiven

lemma count_names_layout (attributes : Attributes) (name : String) :
    (layout attributes).1.names.count name = attributes.names.count name := by
  rw [(layout_swapped attributes).count_names, List.count_erase]
  by_cases hhas : attributes.has "layout"
  · have hpos := List.count_pos_iff.mpr (has_iff.mp hhas)
    rw [if_pos hhas, List.count_singleton]
    split_ifs with hname
    · rw [← beq_iff_eq.mp hname]
      omega
    · rfl
  · have hzero := List.count_eq_zero.mpr fun hmem => hhas (has_iff.mpr hmem)
    rw [if_neg hhas, List.count_nil]
    split_ifs with hname
    · rw [← beq_iff_eq.mp hname, hzero]
    · rfl

end Image

lemma image_fst (attributes : Attributes) :
    (image attributes).1 = (Image.layout (Image.fill attributes).1).1.eraseAll
      ("placeholder" :: "blurDataURL" :: Image.dropped) := by
  have hcheck : ∀ attributes, (sequence [Image.sizeCheck] attributes).1 = attributes := by
    intro attributes
    simp only [sequence, keep, Image.sizeCheck]
    split_ifs <;> rfl
  rw [image, sequence_append_fst, hcheck, sequence_append_fst, sequence_drops_fst]
  rfl

namespace Link

/-- The link does not scroll. -/
def isStill (attributes : Attributes) : Bool :=
  (attributes.get? "scroll").any (·.value == some "\x7bfalse\x7d")

lemma href_swapped (attributes : Attributes) :
    attributes.Swapped "href" (if attributes.has "href" then ["to"] else []) (href attributes).1 := by
  unfold href
  cases hhref : attributes.get? "href" with
  | none => simpa [has, hhref] using swapped_of_get?_eq_none hhref
  | some given =>
    rw [has_of_get? hhref, if_pos rfl]
    exact ⟨[⟨"to", given.value⟩], [], (List.append_nil _).symm, rfl⟩

lemma scroll_swapped (attributes : Attributes) : attributes.Swapped "scroll"
    (if isStill attributes then ["preventScrollReset"] else []) (scroll attributes).1 := by
  unfold scroll isStill
  cases hscroll : attributes.get? "scroll" with
  | none => exact swapped_of_get?_eq_none hscroll
  | some given =>
    simp only [Option.any_some]
    split_ifs
    · exact swapped_concat attributes "scroll" _
    · exact swapped_erase attributes "scroll"

/-- Neither the target nor the shown address has to do with scrolling. -/
lemma isStill_href (attributes : Attributes) :
    isStill ((href attributes).1.erase "as") = isStill attributes := by
  have hget : (href attributes).1.get? "scroll" = attributes.get? "scroll" :=
    (href_swapped attributes).get?_of_ne (by decide) (by split_ifs <;> decide)
  rw [isStill, get?_erase_of_ne _ (by decide), hget, isStill]

end Link

lemma link_fst (attributes : Attributes) : (link attributes).1 =
    (Link.scroll ((Link.href attributes).1.erase "as")).1.eraseAll
      ["legacyBehavior", "passHref", "prefetch", "shallow", "locale"] := by
  simp only [link, sequence, keep, drop_fst]
  rfl

namespace Script

/-- The flag that says when a script is loaded. -/
def loadFlag? (attributes : Attributes) : Option String :=
  match attributes.get? "strategy" with
  | some given =>
    match given.string? with
    | some "beforeInteractive" => none
    | some "lazyOnload" => some "defer"
    | _ => some "async"
  | none => if attributes.has "src" then some "async" else none

lemma strategy_fst (attributes : Attributes) : (strategy attributes).1 =
    attributes.erase "strategy" ++ (loadFlag? attributes).toList.map fun flag => ⟨flag, none⟩ := by
  unfold strategy loadFlag?
  cases hstrategy : attributes.get? "strategy" with
  | none =>
    rw [erase_of_get?_eq_none hstrategy]
    by_cases hsrc : attributes.has "src" <;> simp [hsrc]
  | some given =>
    dsimp only
    split
    all_goals rename_i hstring; simp [hstring]

lemma strategy_swapped (attributes : Attributes) :
    attributes.Swapped "strategy" (loadFlag? attributes).toList (strategy attributes).1 := by
  rw [strategy_fst]
  cases loadFlag? attributes with
  | none => simpa using swapped_erase attributes "strategy"
  | some flag => exact swapped_concat attributes "strategy" ⟨flag, none⟩

lemma loadFlag?_cases {attributes : Attributes} {flag : String} (h : loadFlag? attributes = some flag) :
    flag = "async" ∨ flag = "defer" := by
  unfold loadFlag? at h
  split at h
  · split at h <;> cases h <;> simp
  · split_ifs at h
    cases h
    simp

end Script

lemma script_fst (attributes : Attributes) :
    (script attributes).1 = (Script.strategy attributes).1.eraseAll ["onLoad", "onReady", "onError"] :=
  sequence_drops_fst ["onLoad", "onReady", "onError"] (fun handler =>
    ["Script \x60" ++ handler ++ "\x60 handler removed; run it from a useEffect instead"]) _

end TagChange

namespace LegacyComponent

/-- The names of which the first attribute goes when the component is replaced. -/
def droppedNames : LegacyComponent → List String
  | .image => ["fill", "placeholder", "blurDataURL", "quality", "loader", "unoptimized", "objectFit",
      "objectPosition", "lazyBoundary", "lazyRoot"]
  | .link => ["href", "as", "scroll", "legacyBehavior", "passHref", "prefetch", "shallow", "locale"]
  | .script => ["strategy", "onLoad", "onReady", "onError"]
  | .head | .dynamic => []

/-- The names of attributes that the replacement of the component may put in. -/
def givenNames : LegacyComponent → List String
  | .image => ["layout"]
  | .link => ["to", "preventScrollReset"]
  | .script => ["async", "defer"]
  | .head | .dynamic => []

/-- The names of attributes that have a meaning of their own to the replacement of the component. -/
def translatedNames (component : LegacyComponent) : List String :=
  component.droppedNames ++ component.givenNames

/-- The names that are put in for certain attributes, besides those that are there. -/
def addedNames (component : LegacyComponent) (attributes : Attributes) : List String :=
  match component with
  | .image => if TagChange.Image.isFilling attributes then ["layout"] else []
  | .link => (if attributes.has "href" then ["to"] else []) ++
      if TagChange.Link.isStill attributes then ["preventScrollReset"] else []
  | .script => (TagChange.Script.loadFlag? attributes).toList
  | .head | .dynamic => []

variable {component : LegacyComponent} {attributes : Attributes} {name : String}

lemma outside_image (attributes : Attributes) :
    (TagChange.image attributes).1.outside image.translatedNames =
      attributes.outside image.translatedNames := by
  have hlayout := TagChange.Image.layout_swapped (TagChange.Image.fill attributes).1
  rw [TagChange.image_fst, outside_eraseAll (by decide),
    hlayout.outside_eq (by decide) (by split_ifs <;> decide)]
  exact (TagChange.Image.fill_swapped attributes).outside_eq (by decide) (by split_ifs <;> decide)

lemma outside_link (attributes : Attributes) :
    (TagChange.link attributes).1.outside link.translatedNames = attributes.outside link.translatedNames := by
  have hscroll := TagChange.Link.scroll_swapped ((TagChange.Link.href attributes).1.erase "as")
  rw [TagChange.link_fst, outside_eraseAll (by decide),
    hscroll.outside_eq (by decide) (by split_ifs <;> decide), outside_erase (by decide)]
  exact (TagChange.Link.href_swapped attributes).outside_eq (by decide) (by split_ifs <;> decide)

lemma outside_script (attributes : Attributes) :
    (TagChange.script attributes).1.outside script.translatedNames =
      attributes.outside script.translatedNames := by
  rw [TagChange.script_fst, outside_eraseAll (by decide)]
  refine (TagChange.Script.strategy_swapped attributes).outside_eq (by decide) fun flag hflag => ?_
  rcases TagChange.Script.loadFlag?_cases (Option.mem_toList.mp hflag) with rfl | rfl <;> decide

/-- When a component is replaced, the attributes of its elements whose names are not translated stay as they
are, in their order and as often as they occur, spreads among them. A head keeps all of its attributes. -/
theorem other_attributes_kept (component : LegacyComponent) (attributes : Attributes) :
    (component.tagChange attributes).1.outside component.translatedNames =
      attributes.outside component.translatedNames ∧
    (head.tagChange attributes).1 = attributes := by
  refine ⟨?_, rfl⟩
  cases component with
  | image => exact outside_image attributes
  | link => exact outside_link attributes
  | script => exact outside_script attributes
  | head | dynamic => rfl

lemma addedNames_sublist (component : LegacyComponent) (attributes : Attributes) :
    (component.addedNames attributes).Sublist component.givenNames := by
  cases component with
  | image => simp only [addedNames]; split_ifs <;> decide
  | link => simp only [addedNames]; split_ifs <;> decide
  | script =>
    simp only [addedNames]
    cases hflag : TagChange.Script.loadFlag? attributes with
    | none => decide
    | some flag => rcases TagChange.Script.loadFlag?_cases hflag with rfl | rfl <;> decide
  | head | dynamic => exact List.Sublist.refl _

/-- No name is both dropped and put in. -/
lemma count_addedNames_or (component : LegacyComponent) (attributes : Attributes) (name : String) :
    (component.addedNames attributes).count name = 0 ∨ component.droppedNames.count name = 0 := by
  have hapart : ∀ given ∈ component.givenNames, component.droppedNames.count given = 0 := by
    cases component <;> decide
  by_cases hname : name ∈ component.givenNames
  · exact .inr (hapart name hname)
  · exact .inl (List.count_eq_zero.mpr fun hadded => hname ((addedNames_sublist _ _).subset hadded))

/-- Of a name that is dropped there is one attribute less, and of one that is put in there is one more. -/
lemma count_names_tagChange (component : LegacyComponent) (attributes : Attributes) (name : String) :
    (component.tagChange attributes).1.names.count name =
      attributes.names.count name - component.droppedNames.count name
        + (component.addedNames attributes).count name := by
  have hapart := count_addedNames_or component attributes name
  cases component with
  | image =>
    have hdropped : image.droppedNames =
        "fill" :: "placeholder" :: "blurDataURL" :: TagChange.Image.dropped := rfl
    rw [hdropped, List.count_cons] at hapart ⊢
    rw [tagChange, TagChange.image_fst, names_eraseAll, List.count_diff, TagChange.Image.count_names_layout,
      (TagChange.Image.fill_swapped attributes).count_names, List.count_erase]
    simp only [addedNames] at hapart ⊢
    omega
  | link =>
    have hdropped : link.droppedNames =
        "href" :: "as" :: "scroll" :: ["legacyBehavior", "passHref", "prefetch", "shallow", "locale"] := rfl
    rw [hdropped, List.count_cons, List.count_cons, List.count_cons] at hapart ⊢
    rw [tagChange, TagChange.link_fst, names_eraseAll, List.count_diff,
      (TagChange.Link.scroll_swapped _).count_names, List.count_erase, names_erase, List.count_erase,
      (TagChange.Link.href_swapped attributes).count_names, List.count_erase, TagChange.Link.isStill_href]
    simp only [addedNames, List.count_append] at hapart ⊢
    omega
  | script =>
    have hdropped : script.droppedNames = "strategy" :: ["onLoad", "onReady", "onError"] := rfl
    rw [hdropped, List.count_cons] at hapart ⊢
    rw [tagChange, TagChange.script_fst, names_eraseAll, List.count_diff,
      (TagChange.Script.strategy_swapped attributes).count_names, List.count_erase]
    simp only [addedNames] at hapart ⊢
    omega
  | head | dynamic => rfl

/-- Names of attributes that are distinct stay distinct when the component is replaced, exactly when none of
the names that are put in is there already: an image that is to fill its parent has no layout, a link with a
target has no `to` and one that does not scroll no `preventScrollReset`, and a script does not have the flag
that its time of loading becomes. -/
theorem names_stay_distinct_iff (component : LegacyComponent) {attributes : Attributes}
    (hdistinct : attributes.HasDistinctNames) :
    (component.tagChange attributes).1.HasDistinctNames ↔
      ∀ name ∈ component.addedNames attributes, attributes.has name = false := by
  rw [hasDistinctNames_iff] at hdistinct ⊢
  have hsub := addedNames_sublist component attributes
  have hplain : ∀ name ∈ component.givenNames, name.toList.head? ≠ some '\x7b' := by
    cases component <;> decide
  have hnodup : component.givenNames.Nodup := by cases component <;> decide
  constructor
  · intro h name hadded
    by_contra hhas
    have hthere := List.count_pos_iff.mpr (has_iff.mp (Bool.not_eq_false _ ▸ hhas))
    have hput := List.count_pos_iff.mpr hadded
    have hafter := h name (hplain name (hsub.subset hadded))
    have hkept := (count_addedNames_or component attributes name).resolve_left (by omega)
    rw [count_names_tagChange] at hafter
    omega
  · intro hnew name hname
    have hbefore := hdistinct name hname
    have hput := List.nodup_iff_count_le_one.mp (hnodup.sublist hsub) name
    rw [count_names_tagChange]
    by_cases hadded : name ∈ component.addedNames attributes
    · have hnone : attributes.names.count name = 0 := List.count_eq_zero.mpr fun hmem => by
        simpa [hnew name hadded] using has_iff.mpr hmem
      omega
    · rw [List.count_eq_zero.mpr hadded]
      omega

/-- A link between two spreads that is not to scroll. -/
def stillLink : Attributes :=
  [⟨"\x7b...rest\x7d", none⟩, ⟨"scroll", some "\x7bfalse\x7d"⟩, ⟨"href", some "\"/a\""⟩,
   ⟨"\x7b...rest\x7d", none⟩]

theorem names_stay_distinct_iff_stillLink :
    stillLink.HasDistinctNames ∧ link.addedNames stillLink = ["to", "preventScrollReset"] ∧
    (link.tagChange stillLink).1.HasDistinctNames := by
  have hdistinct : stillLink.HasDistinctNames := by decide
  exact ⟨hdistinct, by decide, (names_stay_distinct_iff link hdistinct).mpr (by decide)⟩

/-- A script that is loaded asynchronously as it is gets the flag a second time. -/
theorem flag_put_in_twice :
    HasDistinctNames [⟨"src", some "\"/a.js\""⟩, ⟨"async", none⟩] ∧
    (script.tagChange [⟨"src", some "\"/a.js\""⟩, ⟨"async", none⟩]).1 =
      [⟨"src", some "\"/a.js\""⟩, ⟨"async", none⟩, ⟨"async", none⟩] ∧
    ¬ (script.tagChange [⟨"src", some "\"/a.js\""⟩, ⟨"async", none⟩]).1.HasDistinctNames := by
  decide

end LegacyComponent

end SpaMigration
