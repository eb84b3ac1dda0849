import SpaMigration.Proofs.ItemRuns
import SpaMigration.Proofs.StatementsInLockstep

/-!
# Programs read side by side

A text is a program exactly when its characters that stay are one, and the trees are the same but for the stretches
of text that their nodes cover: each of them is the stretch of corresponding pieces.
-/
namespace SpaMigration.Syntax

open Text (byteSize slice? slice?_eq_some_iff)
open Token (Place skipGap)

/-! ## Trees that are alike -/

namespace Node

variable {spans spans' : Span → Span → Prop} {bytes bytes' : Nat}

mutual

/-- Trees that are alike are so at other places, if what they cover is related there. -/
lemma areAlike.shift (h : ∀ span span', spans span span' →
      spans' ⟨bytes + span.lo, bytes + span.hi⟩ ⟨bytes' + span'.lo, bytes' + span'.hi⟩) :
    ∀ {node node' : Node}, areAlike spans node node' → areAlike spans' (node.shift bytes) (node'.shift bytes')
  | .mk _ _ _, .mk _ _ _, ⟨hkind, hspan, hparts⟩ => ⟨hkind, h _ _ hspan, areAllAlike.shiftAll h hparts⟩

lemma areAllAlike.shiftAll (h : ∀ span span', spans span span' →
      spans' ⟨bytes + span.lo, bytes + span.hi⟩ ⟨bytes' + span'.lo, bytes' + span'.hi⟩) :
    ∀ {nodes nodes' : List Node}, areAllAlike spans nodes nodes' →
      areAllAlike spans' (Node.shiftAll bytes nodes) (Node.shiftAll bytes' nodes')
  | [], [], _ => trivial
  | _ :: _, _ :: _, ⟨hnode, hnodes⟩ => ⟨hnode.shift h, areAllAlike.shiftAll h hnodes⟩

end

lemma areAlike.imp (h : ∀ span span', spans span span' → spans' span span') {node node' : Node}
    (hnodes : areAlike spans node node') : areAlike spans' node node' := by
  rw [← shift_zero node, ← shift_zero node']
  refine hnodes.shift fun span span' hspan => ?_
  simpa only [Nat.zero_add] using h span span' hspan

mutual

/-- A traversal of trees that are alike meets nodes of the same kinds, of which what they cover is related. -/
lemma areAlike.nodes : ∀ {node node' : Node}, areAlike spans node node' →
    List.Forall₂ (fun node node' => node.kind = node'.kind ∧ spans node.span node'.span) node.nodes node'.nodes
  | .mk _ _ _, .mk _ _ _, ⟨hkind, hspan, hparts⟩ => .cons ⟨hkind, hspan⟩ hparts.nodesOf

lemma areAllAlike.nodesOf : ∀ {roots roots' : List Node}, areAllAlike spans roots roots' →
    List.Forall₂ (fun node node' => node.kind = node'.kind ∧ spans node.span node'.span) (nodesOf roots) (nodesOf roots')
  | [], [], _ => .nil
  | _ :: _, _ :: _, ⟨hroot, hroots⟩ => List.rel_append hroot.nodes hroots.nodesOf

end

end Node

/-! ## What stands between marks -/

lemma length_kept_le (pieces : List Piece) : (kept pieces).length ≤ (whole pieces).length := by
  induction pieces with
  | nil => exact Nat.le_refl 0
  | cons piece pieces ih =>
    cases piece with
    | char c => exact Nat.succ_le_succ ih
    | line chars =>
      rw [kept, whole, List.length_append]
      exact Nat.le_add_left_of_le ih

/-- Pieces of which the first one stays are no text when what stays is none. -/
lemma eq_nil_of_kept {pieces : List Piece} (hstart : startsKept pieces) (h : kept pieces = []) : pieces = [] := by
  cases pieces with
  | nil => rfl
  | cons piece pieces =>
    cases piece with
    | char c => cases h
    | line chars => exact hstart.elim

lemma eq_nil_of_whole {pieces : List Piece} (hstart : startsKept pieces) (h : whole pieces = []) : pieces = [] := by
  cases pieces with
  | nil => rfl
  | cons piece pieces =>
    cases piece with
    | char c => cases h
    | line chars => exact hstart.elim

lemma startsKept.of_append {pieces others : List Piece} (h : startsKept (pieces ++ others)) : startsKept pieces := by
  cases pieces with
  | nil => trivial
  | cons piece pieces => cases piece <;> exact h

lemma slice?_append {front middle behind : List Char} {lo hi : Nat} (hlo : lo = byteSize front)
    (hhi : hi = byteSize (front ++ middle)) : slice? (front ++ middle ++ behind) lo hi = some middle :=
  slice?_eq_some_iff.mpr ⟨front, behind, rfl, hlo.symm, hhi.symm⟩

lemma slice?_eq_none_of_lt {text : List Char} {lo hi : Nat} (h : hi < lo) : slice? text lo hi = none := by
  refine Option.eq_none_iff_forall_not_mem.mpr fun middle hmiddle => ?_
  obtain ⟨front, behind, -, rfl, rfl⟩ := slice?_eq_some_iff.mp hmiddle
  rw [Text.byteSize_append] at h
  omega

/-- Marks in pieces are marks in the pieces with others in front. -/
lemma AreMarks.behind {setting : Setting} {markup : Bool} {front pieces : List Piece} {offset offset' : Nat}
    (h : AreMarks ⟨markup, pieces⟩ offset offset') (hpieces : setting.pieces = front ++ pieces) :
    AreMarks setting (byteSize (whole front) + offset) (byteSize (kept front) + offset') := by
  obtain ⟨passed, ahead, rfl, hstart, rfl, rfl⟩ := h
  refine ⟨front ++ passed, ahead, by rw [hpieces, List.append_assoc], hstart, ?_, ?_⟩
  · rw [whole_append, Text.byteSize_append]
  · rw [kept_append, Text.byteSize_append]

lemma AreSpans.behind {setting : Setting} {markup : Bool} {front pieces : List Piece} {span span' : Span}
    (h : AreSpans ⟨markup, pieces⟩ span span') (hpieces : setting.pieces = front ++ pieces) :
    AreSpans setting ⟨byteSize (whole front) + span.lo, byteSize (whole front) + span.hi⟩
      ⟨byteSize (kept front) + span'.lo, byteSize (kept front) + span'.hi⟩ :=
  ⟨h.1.behind hpieces, h.2.behind hpieces⟩

/-- Stretches of both readings: the text of some of the pieces, and of these what stays. -/
def AreStretches (pieces : List Piece) (stretch stretch' : List Char) : Prop :=
  ∃ passed between ahead, pieces = passed ++ between ++ ahead ∧ startsKept between ∧
    stretch = whole between ∧ stretch' = kept between

lemma AreStretches.append {pieces : List Piece} {stretch stretch' : List Char} (h : AreStretches pieces stretch stretch')
    (front : List Piece) : AreStretches (front ++ pieces) stretch stretch' := by
  obtain ⟨passed, between, ahead, rfl, hbetween⟩ := h
  exact ⟨front ++ passed, between, ahead, by simp only [List.append_assoc], hbetween⟩

/-- Between marks stand stretches of the same pieces, or marks in the wrong order cover nothing. -/
lemma AreSpans.slice? {setting : Setting} {span span' : Span} (h : AreSpans setting span span') :
    Option.Rel (AreStretches setting.pieces) (slice? (whole setting.pieces) span.lo span.hi)
      (slice? (kept setting.pieces) span'.lo span'.hi) := by
  obtain ⟨⟨passed, ahead, hpieces, hstart, hlo, hlo'⟩, passed', ahead', hpieces', hstart', hhi, hhi'⟩ := h
  rcases List.append_eq_append_iff.mp (hpieces.symm.trans hpieces') with ⟨between, rfl, rfl⟩ | ⟨between, rfl, rfl⟩
  · rw [hpieces, ← List.append_assoc, whole_append, kept_append, whole_append, kept_append,
      slice?_append hlo (by rw [hhi, whole_append]), slice?_append hlo' (by rw [hhi', kept_append])]
    exact .some ⟨passed, between, ahead', rfl, hstart.of_append, rfl, rfl⟩
  · by_cases hbetween : between = []
    · subst hbetween
      rw [List.append_nil] at hlo hlo'
      rw [hpieces', whole_append, kept_append, ← List.append_nil (whole passed'), ← List.append_nil (kept passed'),
        slice?_append hlo (by rw [hhi, List.append_nil]), slice?_append hlo' (by rw [hhi', List.append_nil])]
      exact .some ⟨passed', [], ahead, by simp, trivial, rfl, rfl⟩
    · have hsize : 0 < byteSize (whole between) := Nat.pos_of_ne_zero fun hzero =>
        hbetween (eq_nil_of_whole hstart'.of_append (Text.byteSize_eq_zero.mp hzero))
      have hsize' : 0 < byteSize (kept between) := Nat.pos_of_ne_zero fun hzero =>
        hbetween (eq_nil_of_kept hstart'.of_append (Text.byteSize_eq_zero.mp hzero))
      rw [slice?_eq_none_of_lt (by rw [hlo, hhi, whole_append, Text.byteSize_append]; omega),
        slice?_eq_none_of_lt (by rw [hlo', hhi', kept_append, Text.byteSize_append]; omega)]
      exact .none

/-- Trees that are alike fit both texts or none. -/
lemma isSound_sideBySide {setting : Setting} {dialect : Dialect} {items items' : List Node}
    (h : List.Forall₂ (Node.areAlike (AreSpans setting)) items items') :
    isSound dialect (whole setting.pieces) items = isSound dialect (kept setting.pieces) items' := by
  have hnodes := (Node.areAllAlike_iff.mpr h).nodesOf
  rw [isSound, isSound]
  generalize Node.nodesOf items = nodes at hnodes
  generalize Node.nodesOf items' = nodes' at hnodes
  induction hnodes with
  | nil => rfl
  | @cons node node' nodes nodes' hnode _ ih =>
    obtain ⟨hkind, hspan⟩ := hnode
    have hfits : node.span.fits (whole setting.pieces) = node'.span.fits (kept setting.pieces) := by
      have hslices := hspan.slice?
      rw [Span.fits, Span.fits]
      generalize slice? (whole setting.pieces) node.span.lo node.span.hi = slice at hslices ⊢
      generalize slice? (kept setting.pieces) node'.span.lo node'.span.hi = slice' at hslices ⊢
      cases hslices <;> rfl
    rw [List.all_cons, List.all_cons, ih, hkind, hfits]

/-! ## Items -/

/-- Behind a gap in the text and the gap in what stays lie the same pieces, the first of which stays. -/
lemma afterGap?_sideBySide {markup : Bool} {above : Above} {pieces : List Piece} (h : Harmless markup above pieces) :
    (afterGap? (whole pieces) = none ∧ afterGap? (kept pieces) = none) ∨
      ∃ gap behind, pieces = gap ++ behind ∧ startsKept behind ∧
        afterGap? (whole pieces) = some (whole behind) ∧ afterGap? (kept pieces) = some (kept behind) := by
  have hskip := skipGap_code_sideBySide h 0 0 true (.inr rfl)
  rw [afterGap?, afterGap?, map_skipGap .code (whole pieces) 0 0 false true, map_skipGap .code (kept pieces) 0 0 false true]
  generalize skipGap .code (whole pieces) 0 true = found at hskip ⊢
  generalize skipGap .code (kept pieces) 0 true = found' at hskip ⊢
  cases hskip with
  | none => exact .inl ⟨rfl, rfl⟩
  | @some found found' hfound =>
    obtain ⟨gap, behind, hpieces, hstart, hplace, hplace'⟩ := hfound.1
    exact .inr ⟨gap, behind, hpieces, hstart, by rw [Option.map_some, hplace], by rw [Option.map_some, hplace']⟩

/-- What two readings of an item find: the same tree, of the same pieces. -/
def AreItems (markup : Bool) (pieces : List Piece) (found found' : Node × Nat) : Prop :=
  Node.areAlike (AreSpans ⟨markup, pieces⟩) found.1 found'.1 ∧ ∃ body rest, pieces = body ++ rest ∧ startsKept rest ∧
    found.2 = (whole body).length ∧ found'.2 = (kept body).length

lemma depthFor_eq {text text' : List Char} (h : text.length < UInt32.size) (h' : text'.length < UInt32.size) :
    depthFor text = depthFor text' := by
  rw [depthFor, depthFor, Nat.max_eq_right h, Nat.max_eq_right h']

/-- Both texts start with the same item, or with none. -/
lemma item?_sideBySide {dialect : Dialect} {pieces : List Piece} (hstart : startsKept pieces)
    (h : Harmless dialect.markup {} pieces) (hshort : (whole pieces).length < UInt32.size) :
    Option.Rel (AreItems dialect.markup pieces) (item? dialect (whole pieces)) (item? dialect (kept pieces)) := by
  have hfits : Context.Fits { dialect } ⟨dialect.markup, pieces⟩ := ⟨rfl⟩
  have hplaces : Abreast ⟨dialect.markup, pieces⟩ {} (whole pieces, 0) (kept pieces, 0) :=
    ⟨[], pieces, rfl, hstart, h, rfl, rfl⟩
  have hrun := ((parseAt_inLockstep (depthFor (whole pieces))).parse .moduleItem { dialect } {}).run (beside_after hplaces)
  rw [item?, item?, depthFor_eq (Nat.lt_of_le_of_lt (length_kept_le pieces) hshort) hshort]
  generalize (parseAt (depthFor (whole pieces)) .moduleItem { dialect }).run (.after (whole pieces, 0)) = found at hrun ⊢
  generalize (parseAt (depthFor (whole pieces)) .moduleItem { dialect }).run (.after (kept pieces, 0)) = found' at hrun ⊢
  cases hrun with
  | none => exact .none
  | some hfound =>
    obtain ⟨hitem, hstate⟩ := hfound
    obtain ⟨body, rest, hpieces, hrest, -, hlast, hlast'⟩ := hstate.last
    replace hpieces : pieces = body ++ rest := hpieces
    refine .some ⟨hitem.areTwins, body, rest, hpieces, hrest, ?_, ?_⟩
    · simp only [hlast, hpieces, whole_append, List.length_append, Nat.add_sub_cancel]
    · simp only [hlast', hpieces, kept_append, List.length_append, Nat.add_sub_cancel]

/-- An item without a character stands there again and again, so that the text is no program. -/
lemma itemsFrom_of_empty_item {dialect : Dialect} {text : List Char} {item : Node} (hgap : afterGap? text = some text)
    (hne : text ≠ []) (hitem : item? dialect text = some (item, 0)) (most offset : Nat) :
    itemsFrom dialect most (text, offset) = none := by
  induction most generalizing offset with
  | zero =>
    have hfrom := @itemsFrom_of_afterGap? [] text hgap dialect 0 offset
    rwa [if_neg hne] at hfrom
  | succ most ih =>
    have hfrom := @itemsFrom_of_afterGap? [] text hgap dialect (most + 1) offset
    rw [if_neg hne] at hfrom
    refine hfrom.trans ?_
    rw [hitem]
    simp only [Option.bind_some, List.drop_zero, ih, Option.map_none]

/-- From corresponding places on, both texts have the same items, or none. -/
lemma itemsFrom_sideBySide {setting : Setting} {dialect : Dialect} (hmarkup : dialect.markup = setting.markup)
    {passed ahead : List Piece} (hpieces : setting.pieces = passed ++ ahead) (h : Harmless setting.markup {} ahead)
    (hshort : (whole ahead).length < UInt32.size) {most most' : Nat} (hmost : (whole ahead).length ≤ most)
    (hmost' : (kept ahead).length ≤ most') :
    Option.Rel (List.Forall₂ (Node.areAlike (AreSpans setting)))
      (itemsFrom dialect most (whole ahead, byteSize (whole passed)))
      (itemsFrom dialect most' (kept ahead, byteSize (kept passed))) := by
  induction most using Nat.strong_induction_on generalizing passed ahead most' with
  | _ most ih =>
    rcases afterGap?_sideBySide h with ⟨hgap, hgap'⟩ | ⟨gap, behind, rfl, hstart, hgap, hgap'⟩
    · rw [itemsFrom_of_open_comment hgap, itemsFrom_of_open_comment hgap']
      exact .none
    rw [whole_append] at hgap hshort hmost
    rw [kept_append] at hgap' hmost'
    rw [whole_append, kept_append, itemsFrom_of_afterGap? hgap, itemsFrom_of_afterGap? hgap']
    rw [List.length_append] at hshort hmost hmost'
    by_cases hend : behind = []
    · subst hend
      exact .some .nil
    have hwhole : whole behind ≠ [] := fun hnil => hend (eq_nil_of_whole hstart hnil)
    have hkept : kept behind ≠ [] := fun hnil => hend (eq_nil_of_kept hstart hnil)
    obtain ⟨most, rfl⟩ : ∃ n, most = n + 1 :=
      Nat.exists_eq_add_one.mpr (by have := List.length_pos_iff.mpr hwhole; omega)
    obtain ⟨most', rfl⟩ : ∃ n, most' = n + 1 :=
      Nat.exists_eq_add_one.mpr (by have := List.length_pos_iff.mpr hkept; omega)
    rw [if_neg hwhole, if_neg hkept]
    have hitem := item?_sideBySide hstart (hmarkup.symm ▸ h.of_append) (by omega)
    generalize hfound : item? dialect (whole behind) = found at hitem ⊢
    generalize hfound' : item? dialect (kept behind) = found' at hitem ⊢
    cases hitem with
    | none => exact .none
    | @some found found' hitem =>
      obtain ⟨item, count⟩ := found
      obtain ⟨item', count'⟩ := found'
      obtain ⟨halike, body, rest, hbehind, hrest, hcount, hcount'⟩ := hitem
      by_cases hbody : body = []
      · -- The item takes no character, so reading never ends.
        obtain rfl : count = 0 := by subst hbody; exact hcount
        obtain rfl : count' = 0 := by subst hbody; exact hcount'
        simp only [Option.bind_some, List.drop_zero]
        rw [itemsFrom_of_empty_item (afterGap?_self hgap) hwhole hfound,
          itemsFrom_of_empty_item (afterGap?_self hgap') hkept hfound']
        exact .none
      obtain rfl : count = (whole body).length := hcount
      obtain rfl : count' = (kept body).length := hcount'
      subst hbehind
      have hlength := List.length_pos_iff.mpr fun hnil => hbody (eq_nil_of_whole hstart.of_append hnil)
      have hlength' := List.length_pos_iff.mpr fun hnil => hbody (eq_nil_of_kept hstart.of_append hnil)
      simp only [whole_append, kept_append, List.length_append] at hshort hmost hmost'
      have hothers : Option.Rel (List.Forall₂ (Node.areAlike (AreSpans setting)))
          (itemsFrom dialect most (whole rest, byteSize (whole (passed ++ gap ++ body))))
          (itemsFrom dialect most' (kept rest, byteSize (kept (passed ++ gap ++ body)))) :=
        ih most (Nat.lt_succ_self most) (by rw [hpieces]; simp only [List.append_assoc])
          h.of_append.of_append (by omega) (by omega) (by omega)
      simp only [whole_append, kept_append, Text.byteSize_append] at hothers
      simp only [Option.bind_some, whole_append, kept_append, List.drop_left, List.take_left]
      generalize itemsFrom dialect most _ = items at hothers ⊢
      generalize itemsFrom dialect most' _ = items' at hothers ⊢
      cases hothers with
      | none => exact .none
      | some hothers =>
        refine .some (.cons (halike.shift fun span span' hspan => ?_) hothers)
        rw [← Text.byteSize_append, ← whole_append, ← Text.byteSize_append, ← kept_append]
        exact hspan.behind (by rw [hpieces, List.append_assoc])

/-! ## Programs -/

/-- What is read differently in front of a program: a byte-order mark, and a line that names an interpreter. -/
def hasPreamble (text : List Char) : Prop := text.head? = some '\uFEFF' ∨ ['#', '!'] <+: text

instance (text : List Char) : Decidable (hasPreamble text) :=
  inferInstanceAs (Decidable (text.head? = some '\uFEFF' ∨ ['#', '!'] <+: text))

/-- No line that goes is in front of a preamble. -/
def keepsPreamble (pieces : List Piece) : Prop := startsKept pieces ∨ ¬ hasPreamble (kept pieces)

instance (pieces : List Piece) : Decidable (keepsPreamble pieces) :=
  inferInstanceAs (Decidable (startsKept pieces ∨ ¬ hasPreamble (kept pieces)))

lemma skipInterpreterLine_of_not_prefix {text : List Char} (h : ¬ ['#', '!'] <+: text) :
    skipInterpreterLine text = (text, 0) := by
  unfold skipInterpreterLine
  split
  · exact absurd ⟨_, rfl⟩ h
  · rfl

/-- A line of a comment is no preamble. -/
lemma IsHarmlessLine.not_hasPreamble {above : Above} {line : List Char} (h : IsHarmlessLine above line)
    (rest : List Char) : ¬ hasPreamble (line ++ rest) := by
  obtain ⟨spacing, body, rfl, hspacing, -⟩ := h.isComment
  cases spacing with
  | nil => simp [hasPreamble]
  | cons c spacing =>
    have hc : c ≠ '\uFEFF' ∧ '#' ≠ c := by
      constructor
      all_goals
        rintro rfl
        exact absurd (hspacing _ List.mem_cons_self) (by decide)
    simp [hasPreamble, hc]

variable {markup : Bool} {above : Above} {pieces : List Piece}

/-- What names an interpreter is the same in both readings. -/
lemma exists_of_prefix (hstart : startsKept pieces) (h : Harmless markup above pieces)
    (hline : ['#', '!'] <+: whole pieces ∨ ['#', '!'] <+: kept pieces) :
    ∃ rest, pieces = .char '#' :: .char '!' :: rest := by
  cases pieces with
  | nil => simp [whole, kept] at hline
  | cons piece pieces =>
    cases piece with
    | line chars => exact hstart.elim
    | char c =>
      simp only [whole, kept, List.cons_prefix_cons, ← and_or_left] at hline
      obtain ⟨rfl, hline⟩ := hline
      have hnext := h.1 (by decide)
      cases pieces with
      | nil => simp [whole, kept] at hline
      | cons piece pieces =>
        cases piece with
        | line chars => exact hnext.elim
        | char d =>
          simp only [whole, kept, List.cons_prefix_cons, ← and_or_left] at hline
          obtain ⟨rfl, -⟩ := hline
          exact ⟨pieces, rfl⟩

/-- The first line of a program is skipped side by side. -/
lemma skipInterpreterLine_sideBySide (hstart : startsKept pieces) (h : Harmless markup above pieces) :
    ∃ passed ahead, pieces = passed ++ ahead ∧ skipInterpreterLine (whole pieces) = (whole ahead, byteSize (whole passed)) ∧
      skipInterpreterLine (kept pieces) = (kept ahead, byteSize (kept passed)) := by
  by_cases hline : ['#', '!'] <+: whole pieces ∨ ['#', '!'] <+: kept pieces
  · obtain ⟨rest, rfl⟩ := exists_of_prefix hstart h hline
    have hplaces : Abreast ⟨markup, .char '#' :: .char '!' :: rest⟩ above (whole rest, 2) (kept rest, 2) :=
      ⟨[.char '#', .char '!'], rest, rfl, h.of_cons.1 (by decide), h.of_cons.of_cons, rfl, rfl⟩
    obtain ⟨-, passed, ahead, hpieces, -, -, hplace, hplace'⟩ :=
      hplaces.dropWhile (p := fun c => !Text.isLineTerminator c) (by decide)
    exact ⟨passed, ahead, hpieces, hplace, hplace'⟩
  · obtain ⟨hwhole, hkept⟩ := not_or.mp hline
    exact ⟨[], pieces, rfl, skipInterpreterLine_of_not_prefix hwhole, skipInterpreterLine_of_not_prefix hkept⟩

/-- Behind a byte-order mark and a first line, the same pieces are left to be read. -/
lemma exists_program (hpreamble : keepsPreamble pieces) (h : Harmless markup above pieces) :
    ∃ mark program passed ahead, pieces = mark ++ program ∧ program = passed ++ ahead ∧
      dropMark (whole pieces) = whole program ∧ dropMark (kept pieces) = kept program ∧
      skipInterpreterLine (whole program) = (whole ahead, byteSize (whole passed)) ∧
      skipInterpreterLine (kept program) = (kept ahead, byteSize (kept passed)) := by
  have hplain : ∀ {text : List Char}, ¬ hasPreamble text → dropMark text = text ∧ skipInterpreterLine text = (text, 0) :=
    fun hnone => ⟨Source.dropMark_of_head? fun hhead => hnone (.inl hhead),
      skipInterpreterLine_of_not_prefix fun hline => hnone (.inr hline)⟩
  cases pieces with
  | nil => exact ⟨[], [], [], [], rfl, rfl, rfl, rfl, rfl, rfl⟩
  | cons piece pieces =>
    cases piece with
    | line chars =>
      obtain ⟨hwhole, hline⟩ := hplain (h.1.not_hasPreamble (whole pieces))
      obtain ⟨hkept, hline'⟩ := hplain (hpreamble.resolve_left id)
      exact ⟨[], _, [], _, rfl, rfl, hwhole, hkept, hline, hline'⟩
    | char c =>
      by_cases hc : c = '\uFEFF'
      · subst hc
        obtain ⟨passed, ahead, hpieces, hline, hline'⟩ := skipInterpreterLine_sideBySide (h.1 (by decide)) h.of_cons
        exact ⟨[_], pieces, passed, ahead, rfl, hpieces, rfl, rfl, hline, hline'⟩
      · have hstart : startsKept (.char c :: pieces) := trivial
        obtain ⟨passed, ahead, hpieces, hline, hline'⟩ := skipInterpreterLine_sideBySide hstart h
        have hmark : ∀ {rest : List Char}, dropMark (c :: rest) = c :: rest :=
          Source.dropMark_of_head? fun hhead => hc (Option.some.inj hhead)
        exact ⟨[], _, passed, ahead, rfl, hpieces, hmark, hmark, hline, hline'⟩

/-- A text is a program exactly when what stays of it is one. The trees are the same but for the stretches that are
covered, which are stretches of the same pieces. -/
theorem parse?_sideBySide {dialect : Dialect} (hpreamble : keepsPreamble pieces) (h : Harmless dialect.markup {} pieces)
    (hshort : (whole pieces).length < UInt32.size) :
    Option.Rel (List.Forall₂ (Node.areAlike fun span span' => Option.Rel (AreStretches pieces)
        (slice? (dropMark (whole pieces)) span.lo span.hi) (slice? (dropMark (kept pieces)) span'.lo span'.hi)))
      (parse? dialect (whole pieces)) (parse? dialect (kept pieces)) := by
  obtain ⟨mark, program, passed, ahead, rfl, hprogram, hmark, hmark', hline, hline'⟩ := exists_program hpreamble h
  have hlength : (whole program).length ≤ (whole (mark ++ program)).length := by
    rw [whole_append, List.length_append]
    exact Nat.le_add_left _ _
  have hahead : (whole ahead).length ≤ (whole program).length := by
    rw [hprogram, whole_append, List.length_append]
    exact Nat.le_add_left _ _
  have hahead' : (kept ahead).length ≤ (kept program).length := by
    rw [hprogram, kept_append, List.length_append]
    exact Nat.le_add_left _ _
  have hitems : Option.Rel (List.Forall₂ (Node.areAlike (AreSpans ⟨dialect.markup, program⟩))) _ _ :=
    itemsFrom_sideBySide rfl hprogram (hprogram ▸ h.of_append).of_append (by omega) hahead hahead'
  rw [parse?, parse?, hmark, hmark', hline, hline']
  simp only [Option.bind_eq_bind]
  generalize itemsFrom dialect (whole program).length _ = items at hitems ⊢
  generalize itemsFrom dialect (kept program).length _ = items' at hitems ⊢
  cases hitems with
  | none => exact .none
  | @some items items' hitems =>
    have hsound : isSound dialect (whole program) items = isSound dialect (kept program) items' := isSound_sideBySide hitems
    rw [Option.bind_some, Option.bind_some, ← hsound]
    split_ifs
    · refine .some (hitems.imp fun item item' halike => halike.imp fun span span' hspan => ?_)
      have hslices : Option.Rel (AreStretches program) (slice? (whole program) span.lo span.hi)
        (slice? (kept program) span'.lo span'.hi) := hspan.slice?
      generalize slice? (whole program) span.lo span.hi = slice at hslices ⊢
      generalize slice? (kept program) span'.lo span'.hi = slice' at hslices ⊢
      cases hslices with
      | none => exact .none
      | some hstretches => exact .some (hstretches.append mark)
    · exact .none

end SpaMigration.Syntax
