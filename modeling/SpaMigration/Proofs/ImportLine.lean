import Mathlib.Data.List.TakeWhile
import SpaMigration.Component.DefaultImport
import SpaMigration.Proofs.TextCuts

/-!
# The line of an import

Widening the span of a declaration to its line never takes more than blanks and one line end, and it only
happens when the declaration has the line to itself.
-/
namespace SpaMigration

open Syntax Text

/-- `wide` is the whole line of `span`: besides what `span` covers it has blanks and a line end, which the
end of the text may stand for, and a line starts where it starts. -/
inductive WholeLine : List Char → Span → Span → Prop
  | mk (above left inner right ending below : List Char)
      (hleft : ∀ c ∈ left, isLineBlank c) (hright : ∀ c ∈ right, isLineBlank c)
      (habove : above = [] ∨ above.getLast? = some '\n')
      (hending : ending = ['\n'] ∨ ending = ['\r', '\n'] ∨ ending = [] ∧ below = []) :
      WholeLine (above ++ left ++ inner ++ right ++ ending ++ below)
        ⟨byteSize (above ++ left), byteSize (above ++ left ++ inner)⟩
        ⟨byteSize above, byteSize (above ++ left ++ inner ++ right ++ ending)⟩

lemma utf8Size_of_isLineBlank {c : Char} (h : isLineBlank c) : c.utf8Size = 1 := by
  simp only [isLineBlank, Bool.or_eq_true, beq_iff_eq] at h
  rcases h with rfl | rfl <;> rfl

lemma byteSize_of_isLineBlank {s : List Char} (h : ∀ c ∈ s, isLineBlank c) : byteSize s = s.length := by
  induction s with
  | nil => rfl
  | cons c cs ih =>
    have hc := utf8Size_of_isLineBlank (h c List.mem_cons_self)
    have hcs := ih fun d hd => h d (List.mem_cons_of_mem _ hd)
    simp only [byteSize_cons, List.length_cons]
    omega

/-- A line end of a size is that many bytes of a line break, or the end of the text. -/
lemma lineEnd?_eq_some {s : List Char} {size : Nat} (h : lineEnd? s = some size) :
    ∃ ending below, s = ending ++ below ∧ byteSize ending = size ∧
      (ending = ['\n'] ∨ ending = ['\r', '\n'] ∨ ending = [] ∧ below = []) := by
  unfold lineEnd? at h
  split at h
  · exact ⟨[], [], rfl, Option.some.inj h, .inr (.inr ⟨rfl, rfl⟩)⟩
  · exact ⟨['\n'], _, rfl, Option.some.inj h, .inl rfl⟩
  · exact ⟨['\r', '\n'], _, rfl, Option.some.inj h, .inr (.inl rfl)⟩
  · cases h

/-- The end of a text that satisfies a predicate, behind what is in front of that end. -/
lemma reverse_dropWhile_append_reverse_takeWhile (p : Char → Bool) (s : List Char) :
    (s.reverse.dropWhile p).reverse ++ (s.reverse.takeWhile p).reverse = s := by
  rw [← List.reverse_append, List.takeWhile_append_dropWhile, List.reverse_reverse]

/-- A text before a span is the lines above it and the blanks in front of the span. -/
lemma exists_above_left {before : List Char}
    (h : (before.reverse.dropWhile isLineBlank).head?.all (· == '\n')) :
    ∃ above left, before = above ++ left ∧ (∀ c ∈ left, isLineBlank c) ∧
      left.length = (before.reverse.takeWhile isLineBlank).length ∧
      (above = [] ∨ above.getLast? = some '\n') := by
  refine ⟨(before.reverse.dropWhile isLineBlank).reverse,
    (before.reverse.takeWhile isLineBlank).reverse,
    (reverse_dropWhile_append_reverse_takeWhile isLineBlank before).symm, ?_, by simp, ?_⟩
  · intro c hc
    exact List.mem_takeWhile_imp (List.mem_reverse.mp hc)
  · cases hd : before.reverse.dropWhile isLineBlank with
    | nil => exact .inl rfl
    | cons c cs =>
      rw [hd] at h
      simp only [List.head?_cons, Option.all_some, beq_iff_eq] at h
      exact .inr (by simp [h])

/-- A span of whole characters is widened to its whole line, or not at all. -/
theorem wholeLine_eq_or {text : List Char} {span : Span} (hfits : span.fits text) :
    wholeLine text span = span ∨ WholeLine text span (wholeLine text span) := by
  obtain ⟨inner, hinner⟩ := Option.isSome_iff_exists.mp hfits
  obtain ⟨before, after, rfl, hlo, hhi⟩ := slice?_eq_some_iff.mp hinner
  obtain ⟨lo, hi⟩ := span
  obtain rfl : byteSize before = lo := hlo
  obtain rfl : byteSize (before ++ inner) = hi := hhi
  have hcutLo : splitAtByte? (byteSize before) (before ++ inner ++ after)
      = some (before, inner ++ after) := by rw [List.append_assoc, splitAtByte?_append]
  simp only [wholeLine, hcutLo, splitAtByte?_append]
  split
  · rename_i size habove hend
    obtain ⟨above, left, rfl, hleft, hlen, habove⟩ := exists_above_left habove
    obtain ⟨ending, below, hrest, rfl, hending⟩ := lineEnd?_eq_some hend
    have hright : ∀ c ∈ after.takeWhile isLineBlank, isLineBlank c := fun c hc =>
      List.mem_takeWhile_imp hc
    have hafter : after = after.takeWhile isLineBlank ++ ending ++ below := by
      rw [List.append_assoc, ← hrest, List.takeWhile_append_dropWhile]
    have hline := WholeLine.mk above left inner (after.takeWhile isLineBlank) ending below hleft hright
      habove hending
    have htext : above ++ left ++ inner ++ after.takeWhile isLineBlank ++ ending ++ below
        = above ++ left ++ inner ++ after := by
      conv_rhs => rw [hafter]
      simp
    have hwide : (⟨byteSize (above ++ left) - ((above ++ left).reverse.takeWhile isLineBlank).length,
        byteSize (above ++ left ++ inner) + (after.takeWhile isLineBlank).length + byteSize ending⟩ : Span)
        = ⟨byteSize above,
          byteSize (above ++ left ++ inner ++ after.takeWhile isLineBlank ++ ending)⟩ := by
      rw [← hlen, ← byteSize_of_isLineBlank hleft, ← byteSize_of_isLineBlank hright]
      simp only [byteSize_append, Span.mk.injEq, and_true]
      omega
    rw [hwide]
    exact .inr (htext ▸ hline)
  · exact .inl rfl

/-- A whole line covers whole characters. -/
lemma WholeLine.fits {text : List Char} {span wide : Span} (h : WholeLine text span wide) :
    wide.fits text := by
  obtain ⟨above, left, inner, right, ending, below, hleft, hright, habove, hending⟩ := h
  refine Option.isSome_iff_exists.mpr ⟨left ++ inner ++ right ++ ending, ?_⟩
  exact slice?_eq_some_iff.mpr ⟨above, below, by simp, rfl, by simp⟩

end SpaMigration
