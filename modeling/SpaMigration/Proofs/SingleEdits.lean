import Mathlib.Data.List.Pairwise
import SpaMigration.Proofs.EditSweep

/-!
# A pass of edits as single replacements

The pass over a text takes some of the edits and leaves the others out. Those that it takes lie in the text and
do not overlap; one that it leaves out, though it lies in the text, starts before the end of one that was taken
before it. What comes out is the text with the edits taken applied one at a time, the last one first, so that no
replacement moves the range of another. Edits of different ranges may be given in any order.
-/
namespace SpaMigration

namespace Text

instance (s : List Char) (n : Nat) : Decidable (IsBoundary s n) :=
  decidable_of_iff _ isBoundary_iff_isSome.symm

end Text

namespace Edit

open Text

/-- The text with the range of one edit replaced; `none` when that is no range of whole characters. -/
def replaceIn? (edit : Edit) (text : List Char) : Option (List Char) := do
  let _ ← slice? text edit.lo edit.hi
  let before ← slice? text 0 edit.lo
  let after ← slice? text edit.hi (byteSize text)
  return before ++ edit.text ++ after

/-- The edits applied one at a time, from the last of the list to the first. -/
def replaceFromLast? (text : List Char) (edits : List Edit) : Option (List Char) :=
  edits.foldr (fun edit result => result.bind edit.replaceIn?) (some text)

lemma replaceIn?_append {edit : Edit} {before cut after : List Char} (hlo : edit.lo = byteSize before)
    (hhi : edit.hi = byteSize (before ++ cut)) :
    edit.replaceIn? (before ++ cut ++ after) = some (before ++ edit.text ++ after) := by
  have hcut : slice? (before ++ cut ++ after) edit.lo edit.hi = some cut :=
    slice?_eq_some_iff.mpr ⟨before, after, rfl, hlo.symm, hhi.symm⟩
  have hbefore : slice? (before ++ cut ++ after) 0 edit.lo = some before :=
    slice?_eq_some_iff.mpr ⟨[], cut ++ after, by simp, rfl, hlo.symm⟩
  have hafter : slice? (before ++ cut ++ after) edit.hi (byteSize (before ++ cut ++ after)) = some after :=
    slice?_eq_some_iff.mpr ⟨before ++ cut, [], by simp, hhi.symm, rfl⟩
  simp only [replaceIn?, hcut, hbefore, hafter, Option.bind_eq_bind, Option.bind_some, Option.pure_def]

/-- Replacing ranges from left to right is applying the edits one at a time from right to left. -/
theorem Spliced.replaceFromLast?_eq {place : Nat} {rest result : List Char} {edits : List Edit}
    (h : Spliced place rest edits result) {before : List Char} (hbefore : byteSize before = place) :
    replaceFromLast? (before ++ rest) edits = some (before ++ result) := by
  induction h generalizing before with
  | done => rfl
  | @replace place edit edits kept cut rest result hlo hhi _ ih =>
    have hbehind : byteSize (before ++ kept ++ cut) = edit.hi := by
      simp only [byteSize_append, hhi, hlo, hbefore]
    have hrest := ih hbehind
    have htext : before ++ (kept ++ cut ++ rest) = before ++ kept ++ cut ++ rest := by
      simp only [List.append_assoc]
    calc replaceFromLast? (before ++ (kept ++ cut ++ rest)) (edit :: edits)
        = (replaceFromLast? (before ++ kept ++ cut ++ rest) edits).bind edit.replaceIn? := by
          rw [htext]
          rfl
      _ = edit.replaceIn? (before ++ kept ++ cut ++ result) := by rw [hrest, Option.bind_some]
      _ = some (before ++ kept ++ edit.text ++ result) :=
          replaceIn?_append (by rw [hlo, byteSize_append, hbefore]) hbehind.symm
      _ = some (before ++ (kept ++ edit.text ++ result)) := by simp only [List.append_assoc]

/-- The edits that the pass leaves out behind a cursor, in a text of `size` bytes. -/
def dropped (size : Nat) : Nat → List Edit → List Edit
  | _, [] => []
  | cursor, edit :: rest =>
    if edit.lo < cursor || size < edit.hi then edit :: dropped size cursor rest
    else dropped size edit.hi rest

lemma applied_append_dropped_perm (size cursor : Nat) (edits : List Edit) :
    (applied size cursor edits ++ dropped size cursor edits).Perm edits := by
  induction edits generalizing cursor with
  | nil => exact .refl _
  | cons edit rest ih =>
    simp only [applied, dropped]
    split_ifs
    · exact List.perm_middle.trans ((ih cursor).cons edit)
    · exact (ih edit.hi).cons edit

lemma mem_of_mem_dropped {size cursor : Nat} {edits : List Edit} {edit : Edit}
    (h : edit ∈ dropped size cursor edits) : edit ∈ edits :=
  (applied_append_dropped_perm size cursor edits).mem_iff.mp (List.mem_append_right _ h)

/-- An edit of the text is left out because it starts in front of the cursor, or before the end of an edit that
has been taken before it. -/
lemma blocked_of_mem_dropped {size cursor : Nat} {edits : List Edit} {edit : Edit}
    (h : edit ∈ dropped size cursor edits) (hsize : edit.hi ≤ size) :
    edit.lo < cursor ∨
      ∃ other ∈ applied size cursor edits, [other, edit].Sublist edits ∧ edit.lo < other.hi := by
  induction edits generalizing cursor with
  | nil => simp [dropped] at h
  | cons first rest ih =>
    simp only [dropped, applied] at h ⊢
    split_ifs at h ⊢ with hdrop
    · rcases List.mem_cons.mp h with rfl | h
      · simp only [Bool.or_eq_true, decide_eq_true_eq] at hdrop
        exact .inl (by omega)
      · refine (ih h).imp_right ?_
        rintro ⟨other, hother, hsublist, hlt⟩
        exact ⟨other, hother, hsublist.cons first, hlt⟩
    · rcases ih h with hlt | ⟨other, hother, hsublist, hlt⟩
      · have hrest : [edit].Sublist rest := List.singleton_sublist.mpr (mem_of_mem_dropped h)
        exact .inr ⟨first, List.mem_cons_self, hrest.cons_cons first, hlt⟩
      · exact .inr ⟨other, List.mem_cons_of_mem first hother, hsublist.cons first, hlt⟩

/-- The edit ends in the text. -/
def isInside (text : List Char) (edit : Edit) : Bool := decide (edit.hi ≤ byteSize text)

/-- Edits that reach past the end of the text play no part in the pass. -/
lemma applySorted?_filter (text : List Char) (cursor : Nat) (edits : List Edit) :
    applySorted? text cursor (edits.filter (isInside text)) = applySorted? text cursor edits := by
  induction edits generalizing cursor with
  | nil => rfl
  | cons edit rest ih =>
    by_cases hinside : edit.hi ≤ byteSize text
    · rw [List.filter_cons_of_pos (by simpa [isInside] using hinside)]
      simp only [applySorted?, ih]
    · have hdrop : (edit.lo < cursor || byteSize text < edit.hi) = true := by simp; omega
      rw [List.filter_cons_of_neg (by simpa [isInside] using hinside), ih, applySorted?, if_pos hdrop]

lemma applied_filter (text : List Char) (cursor : Nat) (edits : List Edit) :
    applied (byteSize text) cursor (edits.filter (isInside text)) = applied (byteSize text) cursor edits := by
  induction edits generalizing cursor with
  | nil => rfl
  | cons edit rest ih =>
    by_cases hinside : edit.hi ≤ byteSize text
    · rw [List.filter_cons_of_pos (by simpa [isInside] using hinside)]
      simp only [applied, ih]
    · have hdrop : (edit.lo < cursor || byteSize text < edit.hi) = true := by simp; omega
      rw [List.filter_cons_of_neg (by simpa [isInside] using hinside), ih, applied, if_pos hdrop]

/-- The order of the list does not matter when no two of its edits have the same range. -/
lemma sort_eq_of_perm {edits others : List Edit} (hperm : others.Perm edits)
    (hranges : edits.Pairwise fun a b => (a.lo, a.hi) ≠ (b.lo, b.hi)) : sort others = sort edits := by
  have hsorts : (sort others).Perm (sort edits) :=
    (sort_perm others).trans (hperm.trans (sort_perm edits).symm)
  refine hsorts.eq_of_pairwise (fun a b ha hb hab hba => ?_) (sort_sorted others) (sort_sorted edits)
  -- Edits that come no later than each other have one range, so they are the same edit of the list.
  simp only [notAfter, Bool.or_eq_true, Bool.and_eq_true, decide_eq_true_eq, beq_iff_eq] at hab hba
  have hrange : (a.lo, a.hi) = (b.lo, b.hi) := by
    rw [Prod.mk.injEq]
    omega
  by_contra hne
  have ha : a ∈ edits := (sort_perm edits).mem_iff.mp (hsorts.mem_iff.mp ha)
  have hb : b ∈ edits := (sort_perm edits).mem_iff.mp hb
  have hsymm : Std.Symm fun a b : Edit => (a.lo, a.hi) ≠ (b.lo, b.hi) := ⟨fun _ _ h => h.symm⟩
  exact hranges.forall ha hb hne hrange

/-- The range can be replaced, or is left alone because it reaches past the end of the text: it ends no earlier
than it starts and, if it lies in the text, covers whole characters. -/
structure IsRange (text : List Char) (edit : Edit) : Prop where
  lo_le_hi : edit.lo ≤ edit.hi
  boundaries : edit.hi ≤ byteSize text → IsBoundary text edit.lo ∧ IsBoundary text edit.hi

instance (text : List Char) (edit : Edit) : Decidable (IsRange text edit) :=
  decidable_of_iff
    (edit.lo ≤ edit.hi ∧ (edit.hi ≤ byteSize text → IsBoundary text edit.lo ∧ IsBoundary text edit.hi))
    ⟨fun h => ⟨h.1, h.2⟩, fun h => ⟨h.lo_le_hi, h.boundaries⟩⟩

/-- Some of the edits are taken and the others left out, for no other reason than that they reach past the end
of the text or overlap with an edit taken before them. -/
structure IsSelection (text : List Char) (edits taken leftOut : List Edit) : Prop where
  all : (taken ++ leftOut).Perm edits
  inside : ∀ edit ∈ taken, edit.hi ≤ byteSize text
  apart : taken.Pairwise fun a b => a.hi ≤ b.lo
  blocked : ∀ edit ∈ leftOut, edit.hi ≤ byteSize text → ∃ other ∈ taken,
    [other, edit].Sublist (sort edits) ∧ other.notAfter edit = true ∧ edit.lo < other.hi

/-- The edits that are applied to a text, in order of their ranges. -/
def taken (text : List Char) (edits : List Edit) : List Edit := applied (byteSize text) 0 (sort edits)

/-- The edits that are not applied to a text. -/
def leftOut (text : List Char) (edits : List Edit) : List Edit := dropped (byteSize text) 0 (sort edits)

variable {text : List Char} {edits : List Edit}

lemma fits_of_mem_filter (hedits : ∀ edit ∈ edits, edit.IsRange text) :
    ∀ edit ∈ (sort edits).filter (isInside text), edit.Fits text := by
  intro edit hedit
  obtain ⟨hmem, hinside⟩ := List.mem_filter.mp hedit
  have hrange := hedits edit ((sort_perm edits).mem_iff.mp hmem)
  obtain ⟨hlo, hhi⟩ := hrange.boundaries (of_decide_eq_true hinside)
  exact slice?_isSome_iff.mpr ⟨hlo, hhi, hrange.lo_le_hi⟩

/-- The pass replaces the ranges of the edits taken. -/
lemma applyAll?_spliced_taken (hedits : ∀ edit ∈ edits, edit.IsRange text) :
    ∃ result, applyAll? text edits = some result ∧ Spliced 0 text (taken text edits) result := by
  have htext : text = [] ++ text := rfl
  have hpass := applySorted?_spliced htext (fits_of_mem_filter hedits)
  rwa [byteSize_nil, applySorted?_filter, applied_filter] at hpass

/-- The selection that the pass makes. -/
lemma isSelection_taken (hedits : ∀ edit ∈ edits, edit.IsRange text) :
    IsSelection text edits (taken text edits) (leftOut text edits) := by
  obtain ⟨result, -, hspliced⟩ := applyAll?_spliced_taken hedits
  obtain ⟨hinside, hapart⟩ := hspliced.ranges
  refine ⟨(applied_append_dropped_perm _ _ _).trans (sort_perm edits), fun edit hedit => ?_, hapart, ?_⟩
  · simpa using (hinside edit hedit).2.2
  · intro edit hedit hsize
    rcases blocked_of_mem_dropped hedit hsize with hlt | ⟨other, hother, hsublist, hlt⟩
    · exact absurd hlt (Nat.not_lt_zero _)
    · have horder := (sort_sorted edits).sublist hsublist
      exact ⟨other, hother, hsublist, by simpa using horder, hlt⟩

/-- The pass over a text succeeds; it selects edits that can stand side by side, and its result is the text with
these edits applied one at a time from right to left. If no two edits have the same range, it makes no difference
in which order they are given. -/
theorem applyAll?_eq_replaceFromLast? (hedits : ∀ edit ∈ edits, edit.IsRange text) :
    IsSelection text edits (taken text edits) (leftOut text edits) ∧
    (∃ result, applyAll? text edits = some result ∧
      replaceFromLast? text (taken text edits) = some result) ∧
    ((edits.Pairwise fun a b => (a.lo, a.hi) ≠ (b.lo, b.hi)) →
      ∀ others : List Edit, others.Perm edits → applyAll? text others = applyAll? text edits) := by
  refine ⟨isSelection_taken hedits, ?_, fun hranges others hperm => ?_⟩
  · obtain ⟨result, hresult, hspliced⟩ := applyAll?_spliced_taken hedits
    have hsplices := hspliced.replaceFromLast?_eq Text.byteSize_nil
    exact ⟨result, hresult, hsplices⟩
  · rw [applyAll?, applyAll?, sort_eq_of_perm hperm hranges]

/-- A text with characters of one, two and three bytes. -/
def mixedText : List Char := "aé€b".toList

/-- Edits of that text in no order: some overlap, some touch, one is empty and one reaches past the end. -/
def crowdedEdits : List Edit :=
  [⟨3, 6, ['X']⟩, ⟨1, 6, ['Y', 'Y']⟩, ⟨6, 6, ['!']⟩, ⟨6, 9, ['-']⟩, ⟨1, 3, ['Z']⟩, ⟨0, 1, ['q']⟩]

theorem applyAll?_eq_replaceFromLast?_crowdedEdits :
    (∀ edit ∈ crowdedEdits, edit.IsRange mixedText) ∧
    IsSelection mixedText crowdedEdits [⟨0, 1, ['q']⟩, ⟨1, 3, ['Z']⟩, ⟨3, 6, ['X']⟩, ⟨6, 6, ['!']⟩]
      [⟨1, 6, ['Y', 'Y']⟩, ⟨6, 9, ['-']⟩] ∧
    applyAll? mixedText crowdedEdits = some "qZX!b".toList ∧
    (crowdedEdits.Pairwise fun a b => (a.lo, a.hi) ≠ (b.lo, b.hi)) ∧
    ∀ others : List Edit, others.Perm crowdedEdits → applyAll? mixedText others = some "qZX!b".toList := by
  have hedits : ∀ edit ∈ crowdedEdits, edit.IsRange mixedText := by decide
  have hranges : crowdedEdits.Pairwise fun a b => (a.lo, a.hi) ≠ (b.lo, b.hi) := by decide
  have hresult : applyAll? mixedText crowdedEdits = some "qZX!b".toList := by decide
  obtain ⟨hselection, -, horder⟩ := applyAll?_eq_replaceFromLast? hedits
  exact ⟨hedits, hselection, hresult, hranges, fun others hperm => (horder hranges others hperm).trans hresult⟩

-- Of two edits with one range the first in the list is taken, so their order matters.
example : applyAll? ['a'] [⟨0, 1, ['x']⟩, ⟨0, 1, ['y']⟩] = some ['x'] ∧
    applyAll? ['a'] [⟨0, 1, ['y']⟩, ⟨0, 1, ['x']⟩] = some ['y'] := by decide

end Edit

end SpaMigration
