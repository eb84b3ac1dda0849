import Mathlib.Tactic.Common
import SpaMigration.Text.Basic

/-!
# Cuts of a text at byte offsets

An offset is a boundary of a text when some prefix of it has that many bytes. The two cuts of the library
succeed at boundaries and nowhere else, and what they yield are pieces of the text.
-/
namespace SpaMigration.Text

/-- No character is inside the byte offset `n` of `s`, and `n` is not past its end. -/
def IsBoundary (s : List Char) (n : Nat) : Prop := ∃ before after, s = before ++ after ∧ byteSize before = n

@[simp] theorem byteSize_eq_zero {s : List Char} : byteSize s = 0 ↔ s = [] := by
  cases s with
  | nil => simp
  | cons c cs =>
    have hc := c.utf8Size_pos
    simp only [byteSize_cons, reduceCtorEq, iff_false]
    omega

/-- The cut at an offset yields the two pieces that meet there. -/
theorem splitAtByte?_eq_some_iff {n : Nat} {s before after : List Char} :
    splitAtByte? n s = some (before, after) ↔ s = before ++ after ∧ byteSize before = n := by
  induction s generalizing n before with
  | nil =>
    cases n with
    | zero => cases before <;> simp [splitAtByte?, eq_comm]
    | succ n =>
      simp only [splitAtByte?, reduceCtorEq, false_iff, not_and]
      intro h
      have hb : before = [] := (List.append_eq_nil_iff.mp h.symm).1
      simp [hb]
  | cons c cs ih =>
    cases n with
    | zero =>
      cases before with
      | nil => simp [splitAtByte?, eq_comm]
      | cons d ds =>
        have hd := d.utf8Size_pos
        simp only [splitAtByte?, Option.some.injEq, Prod.mk.injEq, List.nil_eq, reduceCtorEq,
          false_and, byteSize_cons, false_iff, not_and]
        intro _
        omega
    | succ n =>
      have hc := c.utf8Size_pos
      cases before with
      | nil => simp only [splitAtByte?]; split_ifs <;> simp
      | cons d ds =>
        simp only [splitAtByte?, List.cons_append, List.cons.injEq, byteSize_cons]
        split_ifs with h
        · simp only [Option.map_eq_some_iff, Prod.mk.injEq, List.cons.injEq, Prod.exists]
          constructor
          · rintro ⟨a, b, hab, ⟨rfl, rfl⟩, rfl⟩
            obtain ⟨hcs, hsize⟩ := ih.mp hab
            exact ⟨⟨rfl, hcs⟩, by omega⟩
          · rintro ⟨⟨rfl, hcs⟩, hsize⟩
            exact ⟨ds, after, ih.mpr ⟨hcs, by omega⟩, ⟨rfl, rfl⟩, rfl⟩
        · simp only [false_iff, not_and]
          rintro ⟨rfl, _⟩ hsize
          omega

lemma splitAtByte?_append (before after : List Char) :
    splitAtByte? (byteSize before) (before ++ after) = some (before, after) :=
  splitAtByte?_eq_some_iff.mpr ⟨rfl, rfl⟩

theorem isBoundary_iff_isSome {s : List Char} {n : Nat} :
    IsBoundary s n ↔ (splitAtByte? n s).isSome := by
  rw [Option.isSome_iff_exists, Prod.exists]
  simp only [splitAtByte?_eq_some_iff, IsBoundary]

lemma IsBoundary.le_byteSize {s : List Char} {n : Nat} (h : IsBoundary s n) : n ≤ byteSize s := by
  obtain ⟨before, after, rfl, rfl⟩ := h
  simp

/-- Of two prefixes of one text the one with fewer bytes is a prefix of the other. -/
lemma exists_append_of_byteSize_le {a b c d : List Char} (h : a ++ b = c ++ d)
    (hle : byteSize a ≤ byteSize c) : ∃ m, c = a ++ m ∧ b = m ++ d := by
  obtain ⟨m, rfl, hb⟩ | ⟨m, rfl, hd⟩ := List.append_eq_append_iff.mp h
  · exact ⟨m, rfl, hb⟩
  · have hm : m = [] := by
      rw [← byteSize_eq_zero]
      simp only [byteSize_append] at hle
      omega
    subst hm
    exact ⟨[], by simp, by simpa using hd.symm⟩

/-- A slice is what stands between two offsets, with the rest of the text around it. -/
theorem slice?_eq_some_iff {s middle : List Char} {lo hi : Nat} :
    slice? s lo hi = some middle ↔ ∃ before after, s = before ++ middle ++ after ∧
      byteSize before = lo ∧ byteSize (before ++ middle) = hi := by
  simp only [slice?]
  constructor
  · intro h
    split_ifs at h with hle
    simp only [Option.bind_eq_bind, Option.bind_eq_some_iff, Option.pure_def, Option.some.injEq,
      Prod.exists] at h
    obtain ⟨before, tail, hcut, mid, after, hcut', rfl⟩ := h
    rw [splitAtByte?_eq_some_iff] at hcut hcut'
    obtain ⟨rfl, rfl⟩ := hcut
    obtain ⟨rfl, hsize⟩ := hcut'
    exact ⟨before, after, by simp, rfl, by simp only [byteSize_append]; omega⟩
  · rintro ⟨before, after, rfl, rfl, rfl⟩
    have hle : byteSize before ≤ byteSize (before ++ middle) := by simp
    have hsize : byteSize (before ++ middle) - byteSize before = byteSize middle := by simp
    rw [if_pos hle, List.append_assoc, splitAtByte?_append, hsize]
    simp [splitAtByte?_append]

lemma slice?_isSome_iff {s : List Char} {lo hi : Nat} :
    (slice? s lo hi).isSome ↔ IsBoundary s lo ∧ IsBoundary s hi ∧ lo ≤ hi := by
  constructor
  · intro h
    obtain ⟨middle, hm⟩ := Option.isSome_iff_exists.mp h
    rw [slice?_eq_some_iff] at hm
    obtain ⟨before, after, rfl, rfl, rfl⟩ := hm
    exact ⟨⟨before, middle ++ after, by simp, rfl⟩, ⟨before ++ middle, after, rfl, rfl⟩, by simp⟩
  · rintro ⟨⟨a, b, rfl, rfl⟩, ⟨c, d, hcd, rfl⟩, hle⟩
    obtain ⟨m, rfl, rfl⟩ := exists_append_of_byteSize_le hcd hle
    exact Option.isSome_iff_exists.mpr ⟨m, slice?_eq_some_iff.mpr ⟨a, d, by simp, rfl, rfl⟩⟩

end SpaMigration.Text
