import SpaMigration.Proofs.ParsedNodes

/-!
# Reading a program item after item

An item is read by itself, from its first token on. So the items from a place on are the same wherever that
place is, but for their offsets; and a program is read by reading its parts one after another, as long as the
reading arrives where one part ends and the next one starts.
-/
namespace SpaMigration

open Text (byteSize slice? slice?_eq_some_iff)

namespace Text

/-- What stands between two offsets does not depend on how much text is in front, if they count it. -/
lemma slice?_append_left (front text : List Char) (lo hi : Nat) :
    slice? (front ++ text) (byteSize front + lo) (byteSize front + hi) = slice? text lo hi := by
  ext middle
  simp only [slice?_eq_some_iff]
  constructor
  · rintro ⟨before, after, htext, hlo, hhi⟩
    rw [List.append_assoc] at htext
    obtain ⟨m, rfl, hm⟩ := exists_append_of_byteSize_le htext (by omega)
    simp only [byteSize_append] at hlo hhi ⊢
    exact ⟨m, after, by simpa using hm, by omega, by omega⟩
  · rintro ⟨before, after, rfl, rfl, rfl⟩
    exact ⟨front ++ before, after, by simp, by simp, by simp⟩

/-- What stands between two offsets stays there when the text is continued. -/
lemma slice?_append_right {text middle : List Char} {lo hi : Nat} (h : slice? text lo hi = some middle)
    (more : List Char) : slice? (text ++ more) lo hi = some middle := by
  obtain ⟨before, after, rfl, hlo, hhi⟩ := slice?_eq_some_iff.mp h
  exact slice?_eq_some_iff.mpr ⟨before, after ++ more, by simp, hlo, hhi⟩

end Text

namespace Syntax

open Token (Place skipGap)

namespace Node

mutual

lemma nodes_shift (bytes : Nat) : ∀ node : Node, (node.shift bytes).nodes = node.nodes.map (shift bytes)
  | .mk kind span parts => by
    simp only [shift, nodes, List.map_cons, nodesOf_shiftAll bytes parts]

/-- A traversal of shifted trees meets the shifted nodes. -/
lemma nodesOf_shiftAll (bytes : Nat) :
    ∀ roots : List Node, nodesOf (shiftAll bytes roots) = (nodesOf roots).map (shift bytes)
  | [] => rfl
  | root :: rest => by
    simp only [shiftAll, nodesOf, List.map_append, nodes_shift bytes root, nodesOf_shiftAll bytes rest]

end

mutual

lemma shift_shift (a b : Nat) : ∀ node : Node, (node.shift b).shift a = node.shift (a + b)
  | .mk kind span parts => by
    simp only [shift, shiftAll_shiftAll a b parts, Nat.add_assoc]

lemma shiftAll_shiftAll (a b : Nat) :
    ∀ roots : List Node, shiftAll a (shiftAll b roots) = shiftAll (a + b) roots
  | [] => rfl
  | root :: rest => by
    simp only [shiftAll, shift_shift a b root, shiftAll_shiftAll a b rest]

end

mutual

lemma shift_zero : ∀ node : Node, node.shift 0 = node
  | .mk kind span parts => by
    simp only [shift, shiftAll_zero parts, Nat.zero_add]

lemma shiftAll_zero : ∀ roots : List Node, shiftAll 0 roots = roots
  | [] => rfl
  | root :: rest => by
    simp only [shiftAll, shift_zero root, shiftAll_zero rest]

end

@[simp] lemma kind_shift (bytes : Nat) (node : Node) : (node.shift bytes).kind = node.kind := by
  cases node
  rfl

@[simp] lemma span_shift (bytes : Nat) (node : Node) :
    (node.shift bytes).span = ⟨bytes + node.span.lo, bytes + node.span.hi⟩ := by
  cases node
  rfl

lemma shiftAll_eq_map (bytes : Nat) (roots : List Node) : shiftAll bytes roots = roots.map (shift bytes) := by
  induction roots with
  | nil => rfl
  | cons root rest ih => rw [shiftAll, ih, List.map_cons]

end Node

lemma fits_shift (front text : List Char) (span : Span) :
    (⟨byteSize front + span.lo, byteSize front + span.hi⟩ : Span).fits (front ++ text) = span.fits text := by
  rw [Span.fits, Span.fits, Text.slice?_append_left]

lemma isSound_cons (dialect : Dialect) (text : List Char) (item : Node) (items : List Node) :
    isSound dialect text (item :: items) = (isSound dialect text [item] && isSound dialect text items) := by
  simp [isSound, Node.nodesOf, List.all_append]

/-- A tree fits a text as well as the shifted tree does the text behind another one. -/
lemma isSound_shift (dialect : Dialect) (front text : List Char) (item : Node) :
    isSound dialect (front ++ text) [item.shift (byteSize front)] = isSound dialect text [item] := by
  simp only [isSound, Node.nodesOf, List.append_nil, Node.nodes_shift, List.all_map, Function.comp_def,
    Node.kind_shift, Node.span_shift, fits_shift]

/-! ## Gaps between tokens -/

/-- What stands behind the white space and the comments at the start of a text. -/
def afterGap? (s : List Char) : Option (List Char) := (skipGap .code s 0 false).map (·.1.1)

/-- What stands behind a gap depends neither on the offset nor on what was skipped before. -/
lemma map_skipGap (gap : Token.Gap) (s : List Char) (offset offset' : Nat) (line line' : Bool) :
    (skipGap gap s offset line).map (·.1.1) = (skipGap gap s offset' line').map (·.1.1) := by
  fun_induction skipGap gap s offset line generalizing offset' line' with
  | case1 rest offset line ih | case2 rest offset line ih | case8 rest offset line ih =>
    rw [skipGap]
    exact ih _ _
  | case3 c rest offset line hline hblock hterminator ih =>
    rw [skipGap, if_pos hterminator]
    · exact ih _ _
    · exact hline
    · exact hblock
  | case4 c rest offset line hline hblock hterminator hblank ih =>
    rw [skipGap, if_neg hterminator, if_pos hblank]
    · exact ih _ _
    · exact hline
    · exact hblock
  | case5 c rest offset line hline hblock hterminator hblank =>
    rw [skipGap, if_neg hterminator, if_neg hblank]
    · rfl
    · exact hline
    · exact hblock
  | case6 c rest offset line hterminator ih =>
    rw [skipGap, if_pos hterminator]
    exact ih _ _
  | case7 c rest offset line hterminator ih =>
    rw [skipGap, if_neg hterminator]
    exact ih _ _
  | case9 c rest offset line hclose ih =>
    rw [skipGap]
    · exact ih _ _
    · exact hclose
  | case10 => rw [skipGap]
  | case11 gap offset line hgap =>
    rw [skipGap]
    · rfl
    · exact hgap

/-- A gap is skipped to a later place of the same text. -/
lemma skipGap_suffix {gap : Token.Gap} {s : List Char} {offset : Nat} {line newline : Bool} {place : Place}
    (h : skipGap gap s offset line = some (place, newline)) :
    ∃ skipped, s = skipped ++ place.1 ∧ place.2 = offset + byteSize skipped := by
  fun_induction skipGap gap s offset line with
  | case5 | case11 =>
    cases h
    exact ⟨[], rfl, rfl⟩
  | case10 => cases h
  | case1 rest offset line ih | case2 rest offset line ih | case8 rest offset line ih =>
    obtain ⟨skipped, hrest, hplace⟩ := ih h
    refine ⟨_ :: _ :: skipped, congrArg (_ :: _ :: ·) hrest, hplace.trans ?_⟩
    rw [Nat.add_assoc, Nat.add_left_cancel_iff, Text.byteSize_cons, Text.byteSize_cons, ← Nat.add_assoc]
    rfl
  | case3 c rest offset line _ _ _ ih | case4 c rest offset line _ _ _ _ ih | case6 c rest offset line _ ih
  | case7 c rest offset line _ ih | case9 c rest offset line _ ih =>
    obtain ⟨skipped, hrest, hplace⟩ := ih h
    refine ⟨c :: skipped, congrArg (c :: ·) hrest, hplace.trans ?_⟩
    rw [Text.byteSize_cons, Nat.add_assoc]

/-- The place behind a gap, wherever the gap is. -/
lemma skipGap_of_afterGap? {skipped text : List Char} (h : afterGap? (skipped ++ text) = some text)
    (offset : Nat) (line : Bool) : ∃ newline,
      skipGap .code (skipped ++ text) offset line = some ((text, offset + byteSize skipped), newline) := by
  rw [afterGap?, map_skipGap .code _ 0 offset false line] at h
  obtain ⟨⟨⟨_, offset'⟩, newline⟩, hskip, rfl⟩ := Option.map_eq_some_iff.mp h
  obtain ⟨skipped', happend, hoffset⟩ := skipGap_suffix hskip
  obtain rfl := List.append_cancel_right happend
  exact ⟨newline, hskip.trans (by rw [← hoffset])⟩

lemma exists_of_afterGap? {s text : List Char} (h : afterGap? s = some text) : ∃ skipped, s = skipped ++ text := by
  obtain ⟨⟨place, newline⟩, hskip, rfl⟩ := Option.map_eq_some_iff.mp h
  obtain ⟨skipped, happend, -⟩ := skipGap_suffix hskip
  exact ⟨skipped, happend⟩

lemma skipGap_eq_none {s : List Char} (h : afterGap? s = none) (offset : Nat) (line : Bool) :
    skipGap .code s offset line = none := by
  rwa [afterGap?, map_skipGap .code _ 0 offset false line, Option.map_eq_none_iff] at h

/-! ## Items one after another -/

lemma itemsFrom_of_open_comment {s : List Char} (h : afterGap? s = none) (dialect : Dialect)
    (most offset : Nat) : itemsFrom dialect most (s, offset) = none := by
  rw [itemsFrom, skipGap_eq_none h]
  rfl

lemma itemsFrom_of_afterGap? {skipped text : List Char} (h : afterGap? (skipped ++ text) = some text)
    (dialect : Dialect) (most offset : Nat) : itemsFrom dialect most (skipped ++ text, offset) =
      if text = [] then some []
      else match most with
        | 0 => none
        | most + 1 => (item? dialect text).bind fun (item, count) =>
          (itemsFrom dialect most (text.drop count,
            offset + byteSize skipped + byteSize (text.take count))).map
              (item.shift (offset + byteSize skipped) :: ·) := by
  obtain ⟨newline, hskip⟩ := skipGap_of_afterGap? h offset false
  rw [itemsFrom, hskip]
  cases text with
  | nil => rfl
  | cons c rest =>
    cases most with
    | zero => rfl
    | succ most =>
      simp only [Option.map_eq_bind]
      rfl

variable {dialect : Dialect} {place place' last : Place} {items more : List Node}

/-- From a place, items are read one after another up to another place. Each of them covers characters of
the text. -/
inductive Reads (dialect : Dialect) : Place → List Node → Place → Prop
  | done (place : Place) : Reads dialect place [] place
  | item {gap body rest : List Char} {offset : Nat} {item : Node} {items : List Node} {last : Place}
      (hgap : afterGap? (gap ++ (body ++ rest)) = some (body ++ rest)) (hne : body ++ rest ≠ [])
      (hitem : item? dialect (body ++ rest) = some (item, body.length))
      (hsound : isSound dialect (body ++ rest) [item] = true)
      (hrest : Reads dialect (rest, offset + byteSize gap + byteSize body) items last) :
      Reads dialect (gap ++ (body ++ rest), offset) (item.shift (offset + byteSize gap) :: items) last

namespace Reads

lemma trans (h : Reads dialect place items place') (h' : Reads dialect place' more last) :
    Reads dialect place (items ++ more) last := by
  induction h with
  | done => exact h'
  | item hgap hne hitem hsound _ ih => exact .item hgap hne hitem hsound (ih h')

/-- Reading does not depend on the offset of the place, but for the offsets of the nodes. -/
lemma shift {s s' : List Char} {offset offset' : Nat} (h : Reads dialect (s, offset) items (s', offset'))
    (bytes : Nat) :
    Reads dialect (s, bytes + offset) (Node.shiftAll bytes items) (s', bytes + offset') := by
  generalize hplace : (s, offset) = place at h
  generalize hlast : (s', offset') = last at h
  induction h generalizing s offset with
  | done =>
    obtain ⟨rfl, rfl⟩ := Prod.mk.inj (hplace.trans hlast.symm)
    exact .done _
  | @item gap body rest o item items last hgap hne hitem hsound _ ih =>
    obtain ⟨rfl, rfl⟩ := Prod.mk.inj hplace
    rw [Node.shiftAll, Node.shift_shift, ← Nat.add_assoc]
    refine .item hgap hne hitem hsound ?_
    have hrest := ih rfl hlast
    rwa [← Nat.add_assoc, ← Nat.add_assoc] at hrest

/-- Reading goes on in the text. -/
lemma exists_append (h : Reads dialect place items last) :
    ∃ u, place.1 = u ++ last.1 ∧ last.2 = place.2 + byteSize u := by
  induction h with
  | done => exact ⟨[], rfl, rfl⟩
  | @item gap body rest offset item items last hgap hne hitem hsound _ ih =>
    obtain ⟨u, hu, hlast⟩ := ih
    refine ⟨gap ++ (body ++ u), by simp_all, ?_⟩
    simp only [hlast, Text.byteSize_append]
    omega

/-- There is one way to read on: items that are read come first among those up to the end of the text. -/
lemma split (h : Reads dialect place items place') (hall : Reads dialect place more last)
    (hend : afterGap? last.1 = some []) :
    ∃ others, more = items ++ others ∧ Reads dialect place' others last := by
  induction h generalizing more with
  | done => exact ⟨more, rfl, hall⟩
  | @item gap body rest offset item items last' hgap hne hitem hsound _ ih =>
    generalize hplace : (gap ++ (body ++ rest), offset) = place at hall
    cases hall with
    | done =>
      subst hplace
      rw [hgap] at hend
      exact absurd (Option.some.inj hend) hne
    | @item gap₂ body₂ rest₂ offset₂ item₂ items₂ _ hgap₂ hne₂ hitem₂ hsound₂ hrest₂ =>
      obtain ⟨htext, rfl⟩ := Prod.mk.inj hplace
      -- The same gap, and behind it the same item of the same length.
      have htail : body ++ rest = body₂ ++ rest₂ := by
        rw [htext] at hgap
        exact Option.some.inj (hgap.symm.trans hgap₂)
      rw [htail] at htext hitem
      obtain rfl := List.append_cancel_right htext
      obtain ⟨rfl, hlength⟩ := Prod.mk.inj (Option.some.inj (hitem.symm.trans hitem₂))
      obtain ⟨rfl, rfl⟩ := List.append_inj htail hlength
      obtain ⟨others, rfl, hothers⟩ := ih hrest₂
      exact ⟨others, rfl, hothers⟩

end Reads

lemma length_le_of_item? {text : List Char} {item : Node} {count : Nat}
    (h : item? dialect text = some (item, count)) : count ≤ text.length := by
  obtain ⟨⟨found, state⟩, -, hcount⟩ := Option.bind_eq_some_iff.mp h
  cases hcount
  exact Nat.sub_le _ _

/-- What is found from a place on can be read up to a gap at the end of the text. -/
lemma Reads.of_itemsFrom {most : Nat} {front s : List Char}
    (h : itemsFrom dialect most (s, byteSize front) = some items)
    (hsound : isSound dialect (front ++ s) items = true) : items.length ≤ most ∧
      ∃ last, Reads dialect (s, byteSize front) items last ∧ afterGap? last.1 = some [] := by
  induction most generalizing front s items with
  | zero =>
    cases hgap : afterGap? s with
    | none => simp [itemsFrom_of_open_comment hgap] at h
    | some text =>
      obtain ⟨skipped, rfl⟩ := exists_of_afterGap? hgap
      rw [itemsFrom_of_afterGap? hgap] at h
      split_ifs at h with htext
      cases h
      exact ⟨Nat.le_refl 0, _, .done _, htext ▸ hgap⟩
  | succ most ih =>
    cases hgap : afterGap? s with
    | none => simp [itemsFrom_of_open_comment hgap] at h
    | some text =>
      obtain ⟨skipped, rfl⟩ := exists_of_afterGap? hgap
      rw [itemsFrom_of_afterGap? hgap] at h
      split_ifs at h with htext
      · cases h
        exact ⟨Nat.zero_le _, _, .done _, htext ▸ hgap⟩
      · obtain ⟨⟨item, count⟩, hitem, hothers⟩ := Option.bind_eq_some_iff.mp h
        obtain ⟨rest, hrest, rfl⟩ := Option.map_eq_some_iff.mp hothers
        obtain ⟨body, behind, rfl, rfl⟩ : ∃ body behind, text = body ++ behind ∧ body.length = count :=
          ⟨text.take count, text.drop count, (List.take_append_drop count text).symm,
            List.length_take_of_le (length_le_of_item? hitem)⟩
        rw [List.drop_left, List.take_left, ← Text.byteSize_append, ← Text.byteSize_append] at hrest
        rw [isSound_cons, Bool.and_eq_true, ← Text.byteSize_append, ← List.append_assoc, isSound_shift,
          ← List.append_assoc] at hsound
        obtain ⟨hcount, last, hreads, hend⟩ := ih hrest hsound.2
        rw [Text.byteSize_append, Text.byteSize_append] at hreads
        exact ⟨Nat.succ_le_succ hcount, last, .item hgap htext hitem hsound.1 hreads, hend⟩

/-- What can be read up to a gap at the end of the text is found, and it covers characters of the text. -/
lemma Reads.itemsFrom_eq (h : Reads dialect place items last) (hend : afterGap? last.1 = some []) {most : Nat}
    (hmost : items.length ≤ most) {front : List Char} (hfront : byteSize front = place.2) :
    itemsFrom dialect most place = some items ∧ isSound dialect (front ++ place.1) items = true := by
  induction h generalizing most front with
  | done place =>
    have hnil : afterGap? (place.1 ++ []) = some [] := by rwa [List.append_nil]
    have hfound := itemsFrom_of_afterGap? hnil dialect most place.2
    rw [List.append_nil, if_pos rfl] at hfound
    exact ⟨hfound, rfl⟩
  | @item gap body rest offset item items last hgap hne hitem hsound _ ih =>
    obtain ⟨most, rfl⟩ : ∃ m, most = m + 1 := Nat.exists_eq_add_one.mpr (by simp at hmost; omega)
    have hbehind : byteSize (front ++ gap ++ body) = offset + byteSize gap + byteSize body := by
      simp only [Text.byteSize_append, hfront]
    obtain ⟨hfound, hothers⟩ := ih hend (Nat.le_of_succ_le_succ hmost) hbehind
    constructor
    · rw [itemsFrom_of_afterGap? hgap, if_neg hne, hitem]
      simp only [Option.bind_some, List.drop_left, List.take_left, hfound, Option.map_some]
    · rw [isSound_cons, Bool.and_eq_true]
      constructor
      · have hshift := isSound_shift dialect (front ++ gap) (body ++ rest) item
        rw [Text.byteSize_append, hfront, List.append_assoc] at hshift
        rw [hshift, hsound]
      · simpa only [List.append_assoc] using hothers

lemma skipInterpreterLine_eq (text : List Char) :
    ∃ line rest, text = line ++ rest ∧ skipInterpreterLine text = (rest, byteSize line) := by
  unfold skipInterpreterLine
  split
  · rename_i rest
    have hline : rest.takeWhile (fun c => !Text.isLineTerminator c) ++
        rest.drop (rest.takeWhile fun c => !Text.isLineTerminator c).length = rest :=
      List.prefix_iff_eq_append.mp (List.takeWhile_prefix _)
    refine ⟨'#' :: '!' :: rest.takeWhile fun c => !Text.isLineTerminator c,
      rest.drop (rest.takeWhile fun c => !Text.isLineTerminator c).length, ?_, ?_⟩
    · exact congrArg ('#' :: '!' :: ·) hline.symm
    · exact congrArg (Prod.mk _) (Nat.add_assoc 1 1 _)
  · exact ⟨[], text, rfl, rfl⟩

/-- A text is a program exactly when reading it, from behind its byte-order mark and its first line for an
interpreter, comes to a gap at the end. -/
theorem parse?_eq_some_iff {source : List Char} : parse? dialect source = some items ↔
    items.length ≤ (dropMark source).length ∧
      ∃ last, Reads dialect (skipInterpreterLine (dropMark source)) items last ∧ afterGap? last.1 = some [] := by
  obtain ⟨line, rest, htext, hline⟩ := skipInterpreterLine_eq (dropMark source)
  simp only [parse?, Option.bind_eq_bind, Option.bind_eq_some_iff, Option.ite_none_right_eq_some, hline]
  constructor
  · rintro ⟨found, hfound, hsound, hsame⟩
    obtain rfl := Option.some.inj hsame
    exact Reads.of_itemsFrom hfound (htext ▸ hsound)
  · rintro ⟨hlength, last, hreads, hend⟩
    obtain ⟨hfound, hsound⟩ := hreads.itemsFrom_eq hend hlength rfl
    exact ⟨items, hfound, htext ▸ hsound, rfl⟩

end Syntax

end SpaMigration
