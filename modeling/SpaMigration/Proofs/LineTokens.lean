import Mathlib.Data.List.TakeWhile
import Mathlib.Data.Option.Basic
import Mathlib.Tactic.SplitIfs
import SpaMigration.Syntax.Grammar.Literal
import SpaMigration.Syntax.Grammar.Markup

/-!
# Tokens and the ends of lines

Words, numbers, punctuation, regular expressions and the names in markup end with their line, as nothing in them is
a line feed. Where two texts begin with the same line, such a token is read from both in the same way, whatever the
other lines are.
-/
namespace SpaMigration.Syntax

open Text (byteSize isLineTerminator)
open Token (Place)

/-- What stands behind a line without its line feed: nothing, or the line feed first. -/
def EndsLine (rest : List Char) : Prop := ∀ c ∈ rest.head?, c = '\n'

lemma EndsLine.eq_nil_or {rest : List Char} (h : EndsLine rest) : rest = [] ∨ ∃ more, rest = '\n' :: more := by
  cases rest with
  | nil => exact .inl rfl
  | cons c more => exact .inr ⟨more, by rw [h c rfl]⟩

/-- Two places in front of the same part of a line, in two texts that begin with it. -/
def OnLine (line rest rest' : List Char) (offset offset' : Nat) (place place' : Place) : Prop :=
  ∃ passed ahead, line = passed ++ ahead ∧ place = (ahead ++ rest, offset + byteSize passed) ∧
    place' = (ahead ++ rest', offset' + byteSize passed)

/-- What two searches on a line find: nothing, or the same part of it. -/
abbrev BothStay (line rest rest' : List Char) (offset offset' : Nat) : Option Place → Option Place → Prop :=
  Option.Rel (OnLine line rest rest' offset offset')

/-- What two searches for a value on a line find: nothing, or the same value and the same part of the line. -/
abbrev BothFind {α : Type} (line rest rest' : List Char) (offset offset' : Nat) :
    Option (α × Place) → Option (α × Place) → Prop :=
  Option.Rel fun found found' => found.1 = found'.1 ∧ OnLine line rest rest' offset offset' found.2 found'.2

section

variable {line rest rest' : List Char} {offset offset' : Nat} {place place' : Place} {found found' : Option Place}

lemma OnLine.here : OnLine line rest rest' offset offset' (line ++ rest, offset) (line ++ rest', offset') :=
  ⟨[], line, rfl, rfl, rfl⟩

lemma OnLine.append {passed : List Char}
    (h : OnLine line rest rest' (offset + byteSize passed) (offset' + byteSize passed) place place') :
    OnLine (passed ++ line) rest rest' offset offset' place place' := by
  obtain ⟨more, ahead, rfl, rfl, rfl⟩ := h
  exact ⟨passed ++ more, ahead, by simp, by simp [Nat.add_assoc], by simp [Nat.add_assoc]⟩

lemma OnLine.cons {c : Char} {size : Nat} (hsize : c.utf8Size = size)
    (h : OnLine line rest rest' (offset + size) (offset' + size) place place') :
    OnLine (c :: line) rest rest' offset offset' place place' := by
  subst hsize
  exact @OnLine.append _ _ _ _ _ _ _ [c] (by simpa using h)

lemma BothStay.append {passed : List Char}
    (h : BothStay line rest rest' (offset + byteSize passed) (offset' + byteSize passed) found found') :
    BothStay (passed ++ line) rest rest' offset offset' found found' := by
  cases h with
  | none => exact .none
  | some h => exact .some h.append

lemma BothStay.cons {c : Char} {size : Nat} (hsize : c.utf8Size = size)
    (h : BothStay line rest rest' (offset + size) (offset' + size) found found') :
    BothStay (c :: line) rest rest' offset offset' found found' := by
  cases h with
  | none => exact .none
  | some h => exact .some (h.cons hsize)

lemma BothFind.append {α : Type} {passed : List Char} {found found' : Option (α × Place)}
    (h : BothFind line rest rest' (offset + byteSize passed) (offset' + byteSize passed) found found') :
    BothFind (passed ++ line) rest rest' offset offset' found found' := by
  cases h with
  | none => exact .none
  | some h => exact .some ⟨h.1, h.2.append⟩

end

/-- The search stays on the line where it starts, and what stands behind the line does not matter to it. -/
def StaysOnLine (search : Place → Option Place) : Prop :=
  ∀ ⦃line rest rest' : List Char⦄, '\n' ∉ line → EndsLine rest → EndsLine rest' → ∀ offset offset',
    BothStay line rest rest' offset offset' (search (line ++ rest, offset)) (search (line ++ rest', offset'))

lemma StaysOnLine.bind {first second : Place → Option Place} (hfirst : StaysOnLine first)
    (hsecond : StaysOnLine second) : StaysOnLine fun place => (first place).bind second := by
  intro line rest rest' hline hrest hrest' offset offset'
  have hfound := hfirst hline hrest hrest' offset offset'
  dsimp only
  generalize first (line ++ rest, offset) = found at hfound ⊢
  generalize first (line ++ rest', offset') = found' at hfound ⊢
  cases hfound with
  | none => exact .none
  | some hfound =>
    obtain ⟨passed, ahead, rfl, rfl, rfl⟩ := hfound
    exact .append (hsecond (fun hmem => hline (List.mem_append_right _ hmem)) hrest hrest' _ _)

namespace Token

section

variable {line rest : List Char}

/-! ## Numbers -/

lemma utf8Size_of_isDigit {c : Char} (h : c.isDigit = true) : c.utf8Size = 1 ∧ c ≠ '\n' := by
  refine ⟨Char.utf8Size_eq_one_iff.mpr ?_, ?_⟩
  · simp only [Char.isDigit, Bool.and_eq_true, decide_eq_true_eq, ge_iff_le] at h
    exact UInt32.le_trans h.2 (by decide)
  · rintro rfl
    cases h

lemma utf8Size_of_isHex {c : Char} (h : isHex c = true) : c.utf8Size = 1 ∧ c ≠ '\n' := by
  unfold isHex hexValue? at h
  split_ifs at h with hdigit hlower hupper
  · exact utf8Size_of_isDigit hdigit
  · refine ⟨Char.utf8Size_eq_one_iff.mpr (UInt32.le_trans hlower.2 (by decide)), ?_⟩
    rintro rfl
    exact absurd hlower (by decide)
  · refine ⟨Char.utf8Size_eq_one_iff.mpr (UInt32.le_trans hupper.2 (by decide)), ?_⟩
    rintro rfl
    exact absurd hupper (by decide)
  · cases h

/-- These are digits: one byte each, and no line feed. -/
def AreDigits (isDigit : Char → Bool) : Prop := ∀ c, isDigit c = true → c.utf8Size = 1 ∧ c ≠ '\n'

variable {isDigit : Char → Bool}

lemma skipDigits_of_endsLine (hdigits : AreDigits isDigit) (h : EndsLine rest) (offset : Nat) :
    skipDigits isDigit rest offset = some (rest, offset) := by
  have hnewline : isDigit '\n' = false := Bool.eq_false_iff.mpr fun h => (hdigits _ h).2 rfl
  rcases h.eq_nil_or with rfl | ⟨more, rfl⟩ <;> simp [skipDigits, hnewline]

lemma skipDigits_separator_of_endsLine (hdigits : AreDigits isDigit) (h : EndsLine rest) (offset : Nat) :
    skipDigits isDigit ('_' :: rest) offset = none := by
  have hnewline : isDigit '\n' = false := Bool.eq_false_iff.mpr fun h => (hdigits _ h).2 rfl
  rcases h.eq_nil_or with rfl | ⟨more, rfl⟩ <;> simp [skipDigits, hnewline]

lemma staysOnLine_skipDigits (hdigits : AreDigits isDigit) :
    StaysOnLine fun place => skipDigits isDigit place.1 place.2 := by
  intro line rest rest' hline hrest hrest' offset offset'
  induction line generalizing offset offset' with
  | nil =>
    simp only [List.nil_append, skipDigits_of_endsLine hdigits hrest, skipDigits_of_endsLine hdigits hrest']
    exact .some OnLine.here
  | cons c line ih =>
    replace ih := ih (List.not_mem_of_not_mem_cons hline)
    by_cases hc : c = '_'
    · subst hc
      cases line with
      | nil =>
        simp only [List.cons_append, List.nil_append, skipDigits_separator_of_endsLine hdigits hrest,
          skipDigits_separator_of_endsLine hdigits hrest']
        exact .none
      | cons d line =>
        simp only [List.cons_append, skipDigits]
        split_ifs
        · exact (ih (offset + 1) (offset' + 1)).cons rfl
        · exact .none
    · have hplain : ∀ more offset, skipDigits isDigit (c :: more) offset =
          if isDigit c then skipDigits isDigit more (offset + 1) else some (c :: more, offset) := fun more offset => by
        rw [skipDigits] <;> simp [hc]
      simp only [List.cons_append, hplain]
      split_ifs with hdigit
      · exact (ih (offset + 1) (offset' + 1)).cons (hdigits c hdigit).1
      · exact .some OnLine.here

lemma staysOnLine_skipSomeDigits (hdigits : AreDigits isDigit) : StaysOnLine (skipSomeDigits isDigit) := by
  have hnewline : isDigit '\n' = false := Bool.eq_false_iff.mpr fun h => (hdigits _ h).2 rfl
  intro line rest rest' hline hrest hrest' offset offset'
  cases line with
  | nil =>
    have hnone : ∀ {rest} offset, EndsLine rest → skipSomeDigits isDigit (rest, offset) = none := fun offset h => by
      rcases h.eq_nil_or with rfl | ⟨more, rfl⟩ <;> simp [skipSomeDigits, hnewline]
    rw [List.nil_append, List.nil_append, hnone _ hrest, hnone _ hrest']
    exact .none
  | cons c line =>
    simp only [List.cons_append, skipSomeDigits]
    split_ifs with hdigit
    · exact (staysOnLine_skipDigits hdigits (List.not_mem_of_not_mem_cons hline) hrest hrest' _ _).cons
        (hdigits c hdigit).1
    · exact .none

lemma areDigits_isDigit : AreDigits Char.isDigit := fun _ h => utf8Size_of_isDigit h

lemma skipExponent_of_endsLine (h : EndsLine rest) (offset : Nat) :
    skipExponent (rest, offset) = some (rest, offset) := by
  rcases h.eq_nil_or with rfl | ⟨more, rfl⟩ <;> simp [skipExponent]

lemma skipExponent_unsigned {e : Char} (he : (e == 'e' || e == 'E') = true)
    (h : ∀ c ∈ rest.head?, c ≠ '+' ∧ c ≠ '-') (offset : Nat) :
    skipExponent (e :: rest, offset) = skipSomeDigits Char.isDigit (rest, offset + 1) := by
  rw [skipExponent, if_pos he]
  · rintro rest rfl
    exact (h '+' rfl).1 rfl
  · rintro rest rfl
    exact (h '-' rfl).2 rfl

lemma staysOnLine_skipExponent : StaysOnLine skipExponent := by
  have hdigits := staysOnLine_skipSomeDigits areDigits_isDigit
  intro line rest rest' hline hrest hrest' offset offset'
  cases line with
  | nil =>
    rw [List.nil_append, List.nil_append, skipExponent_of_endsLine hrest, skipExponent_of_endsLine hrest']
    exact .some OnLine.here
  | cons e line =>
    have hline' := List.not_mem_of_not_mem_cons hline
    by_cases he : (e == 'e' || e == 'E') = true
    · have hsize : e.utf8Size = 1 := by
        simp only [Bool.or_eq_true, beq_iff_eq] at he
        rcases he with rfl | rfl <;> rfl
      refine BothStay.cons hsize ?_
      have hunsigned : (∀ c ∈ line.head?, c ≠ '+' ∧ c ≠ '-') → BothStay line rest rest' (offset + 1) (offset' + 1)
          (skipExponent (e :: (line ++ rest), offset)) (skipExponent (e :: (line ++ rest'), offset')) := by
        intro h
        have hhead : ∀ {rest}, EndsLine rest → ∀ c ∈ (line ++ rest).head?, c ≠ '+' ∧ c ≠ '-' := by
          intro rest hrest c hc
          cases line with
          | nil =>
            rw [hrest c hc]
            decide
          | cons d line => exact h c hc
        rw [skipExponent_unsigned he (hhead hrest), skipExponent_unsigned he (hhead hrest')]
        exact hdigits hline' hrest hrest' _ _
      cases line with
      | nil => exact hunsigned (by simp)
      | cons sign line =>
        by_cases hsign : sign = '+' ∨ sign = '-'
        · have hline'' := List.not_mem_of_not_mem_cons hline'
          rcases hsign with rfl | rfl
          all_goals
            simp only [List.cons_append, skipExponent, if_pos he]
            exact .cons rfl (hdigits hline'' hrest hrest' _ _)
        · refine hunsigned fun c hc => ?_
          rw [← Option.some.inj hc]
          exact not_or.mp hsign
    · simp only [List.cons_append, skipExponent, if_neg he]
      exact .some OnLine.here

lemma staysOnLine_skipFraction : StaysOnLine skipFraction := by
  intro line rest rest' hline hrest hrest' offset offset'
  cases line with
  | nil =>
    have hplain : ∀ {rest} offset, EndsLine rest → skipFraction (rest, offset) = some (rest, offset) :=
      fun offset h => by
        rcases h.eq_nil_or with rfl | ⟨more, rfl⟩ <;> simp [skipFraction, skipExponent]
    rw [List.nil_append, List.nil_append, hplain _ hrest, hplain _ hrest']
    exact .some OnLine.here
  | cons c line =>
    simp only [List.cons_append, skipFraction]
    split_ifs with hdigit
    · exact ((staysOnLine_skipDigits areDigits_isDigit).bind staysOnLine_skipExponent
        (List.not_mem_of_not_mem_cons hline) hrest hrest' _ _).cons (utf8Size_of_isDigit hdigit).1
    · exact staysOnLine_skipExponent hline hrest hrest' offset offset'

lemma skipDecimal_of_endsLine (h : EndsLine rest) (offset : Nat) : skipDecimal (rest, offset) = some (rest, offset) := by
  rcases h.eq_nil_or with rfl | ⟨more, rfl⟩ <;> simp [skipDecimal, skipExponent]

lemma staysOnLine_skipDecimal : StaysOnLine skipDecimal := by
  intro line rest rest' hline hrest hrest' offset offset'
  cases line with
  | nil =>
    rw [List.nil_append, List.nil_append, skipDecimal_of_endsLine hrest, skipDecimal_of_endsLine hrest']
    exact .some OnLine.here
  | cons c line =>
    have hline' := List.not_mem_of_not_mem_cons hline
    by_cases hbig : c = 'n'
    · subst hbig
      exact .some (OnLine.here.cons rfl)
    · by_cases hpoint : c = '.'
      · subst hpoint
        exact (staysOnLine_skipFraction hline' hrest hrest' _ _).cons rfl
      · have hexponent : ∀ more offset, skipDecimal (c :: more, offset) = skipExponent (c :: more, offset) :=
          fun more offset => by
            rw [skipDecimal]
            · simpa using hbig
            · simpa using hpoint
        rw [List.cons_append, List.cons_append, hexponent, hexponent]
        exact staysOnLine_skipExponent hline hrest hrest' offset offset'

lemma staysOnLine_skipBased (hdigits : AreDigits isDigit) : StaysOnLine (skipBased isDigit) := by
  intro line rest rest' hline hrest hrest' offset offset'
  rw [skipBased, skipBased, Option.map_eq_bind, Option.map_eq_bind]
  refine (staysOnLine_skipSomeDigits hdigits).bind ?_ hline hrest hrest' offset offset'
  intro line rest rest' hline hrest hrest' offset offset'
  cases line with
  | nil =>
    rcases hrest.eq_nil_or with rfl | ⟨more, rfl⟩ <;> rcases hrest'.eq_nil_or with rfl | ⟨more', rfl⟩ <;>
      exact .some OnLine.here
  | cons c line =>
    by_cases hbig : c = 'n'
    · subst hbig
      exact .some (OnLine.here.cons rfl)
    · refine .some ?_
      simp only [List.cons_append]
      split
      · simp_all
      · split
        · simp_all
        · exact OnLine.here

lemma skipNumber?_of_endsLine (h : EndsLine rest) (offset : Nat) : skipNumber? (rest, offset) = none := by
  rcases h.eq_nil_or with rfl | ⟨more, rfl⟩ <;> simp [skipNumber?, skipSomeDigits]

lemma staysOnLine_skipNumber? : StaysOnLine skipNumber? := by
  intro line rest rest' hline hrest hrest' offset offset'
  cases line with
  | nil =>
    rw [List.nil_append, List.nil_append, skipNumber?_of_endsLine hrest, skipNumber?_of_endsLine hrest']
    exact .none
  | cons c line =>
    have hline' := List.not_mem_of_not_mem_cons hline
    by_cases hzero : c = '0'
    · subst hzero
      cases line with
      | nil =>
        have hend : ∀ {rest} offset, EndsLine rest → skipNumber? ('0' :: rest, offset) = some (rest, offset + 1) :=
          fun offset h => by
            rcases h.eq_nil_or with rfl | ⟨more, rfl⟩ <;> simp [skipNumber?, skipDecimal, skipExponent]
        rw [List.cons_append, List.cons_append, List.nil_append, List.nil_append, hend _ hrest, hend _ hrest']
        exact .some (OnLine.here.cons rfl)
      | cons d line =>
        have hline'' := List.not_mem_of_not_mem_cons hline'
        simp only [List.cons_append, skipNumber?]
        split_ifs with hhex hoctal hbinary hdigit
        · have hsize : d.utf8Size = 1 := by
            simp only [Bool.or_eq_true, beq_iff_eq] at hhex
            rcases hhex with rfl | rfl <;> rfl
          exact .cons rfl <| .cons hsize <|
            staysOnLine_skipBased (fun _ h => utf8Size_of_isHex h) hline'' hrest hrest' _ _
        · have hsize : d.utf8Size = 1 := by
            simp only [Bool.or_eq_true, beq_iff_eq] at hoctal
            rcases hoctal with rfl | rfl <;> rfl
          refine .cons rfl (.cons hsize (staysOnLine_skipBased (fun c h => ?_) hline'' hrest hrest' _ _))
          simp only [Bool.and_eq_true, decide_eq_true_eq] at h
          refine ⟨Char.utf8Size_eq_one_iff.mpr (UInt32.le_trans h.2 (by decide)), ?_⟩
          rintro rfl
          exact absurd h.1 (by decide)
        · have hsize : d.utf8Size = 1 := by
            simp only [Bool.or_eq_true, beq_iff_eq] at hbinary
            rcases hbinary with rfl | rfl <;> rfl
          refine .cons rfl (.cons hsize (staysOnLine_skipBased (fun c h => ?_) hline'' hrest hrest' _ _))
          simp only [Bool.or_eq_true, beq_iff_eq] at h
          rcases h with rfl | rfl <;> decide
        · exact .none
        · exact .cons rfl (staysOnLine_skipDecimal hline' hrest hrest' _ _)
    · by_cases hpoint : c = '.'
      · subst hpoint
        exact .cons rfl ((staysOnLine_skipSomeDigits areDigits_isDigit).bind staysOnLine_skipExponent
          hline' hrest hrest' _ _)
      · have hdecimal : ∀ more offset, skipNumber? (c :: more, offset) =
            (skipSomeDigits Char.isDigit (c :: more, offset)).bind skipDecimal := fun more offset => by
          rw [skipNumber?] <;> simp [hzero, hpoint]
        rw [List.cons_append, List.cons_append, hdecimal, hdecimal]
        exact (staysOnLine_skipSomeDigits areDigits_isDigit).bind staysOnLine_skipDecimal hline hrest hrest' _ _

/-- What ends at a number is told by the same line. -/
lemma staysOnLine_number? : StaysOnLine number? := by
  intro line rest rest' hline hrest hrest' offset offset'
  rw [number?, number?]
  refine staysOnLine_skipNumber?.bind ?_ hline hrest hrest' offset offset'
  intro line rest rest' hline hrest hrest' offset offset'
  cases line with
  | nil =>
    rcases hrest.eq_nil_or with rfl | ⟨more, rfl⟩ <;> rcases hrest'.eq_nil_or with rfl | ⟨more', rfl⟩ <;>
      exact .some OnLine.here
  | cons c line =>
    simp only [List.cons_append]
    split_ifs
    · exact .none
    · exact .some OnLine.here

/-! ## Words -/

/-- Of a character that is no line feed. -/
lemma head?_any_append {p : Char → Bool} (hp : p '\n' = false) (h : EndsLine rest) :
    (line ++ rest).head?.any p = line.head?.any p := by
  cases line with
  | nil => rcases h.eq_nil_or with rfl | ⟨more, rfl⟩ <;> simp [hp]
  | cons c line => rfl

lemma takeWhile_append {p : Char → Bool} (hp : p '\n' = false) (h : EndsLine rest) :
    (line ++ rest).takeWhile p = line.takeWhile p := by
  induction line with
  | nil => rcases h.eq_nil_or with rfl | ⟨more, rfl⟩ <;> simp [hp]
  | cons c line ih => simp only [List.cons_append, List.takeWhile_cons, ih]

lemma drop_takeWhile_append (p : Char → Bool) (rest : List Char) :
    (line ++ rest).drop (line.takeWhile p).length = line.dropWhile p ++ rest := by
  have hline : line ++ rest = line.takeWhile p ++ (line.dropWhile p ++ rest) := by
    rw [← List.append_assoc, List.takeWhile_append_dropWhile]
  rw [hline, List.drop_left]

/-- Behind the characters of a kind that a line begins with. -/
lemma onLine_dropWhile (p : Char → Bool) (rest' : List Char) (offset offset' : Nat) :
    OnLine line rest rest' offset offset'
      ((line ++ rest).drop (line.takeWhile p).length, offset + byteSize (line.takeWhile p))
      ((line ++ rest').drop (line.takeWhile p).length, offset' + byteSize (line.takeWhile p)) := by
  rw [drop_takeWhile_append, drop_takeWhile_append]
  exact ⟨line.takeWhile p, line.dropWhile p, List.takeWhile_append_dropWhile.symm, rfl, rfl⟩

lemma hexNumber?_eq_none {digits : List Char} (h : '\n' ∈ digits) : hexNumber? digits = none := by
  have hfold : ∀ n, digits.foldlM (fun n d => (hexValue? d).map (n * 16 + ·)) n = none := by
    induction digits with
    | nil => cases h
    | cons d digits ih =>
      intro n
      rcases List.mem_cons.mp h with rfl | h
      · rfl
      · rw [List.foldlM_cons]
        cases hexValue? d with
        | none => rfl
        | some value => exact ih h _
  rw [hexNumber?, hfold]
  exact ite_self _

lemma unicodeEscape?_four {a b c d : Char} (ha : a ≠ '\x7b') :
    unicodeEscape? (a :: b :: c :: d :: rest) =
      (hexNumber? [a, b, c, d]).bind fun n => some (Char.ofNat n, 4) := by
  rw [unicodeEscape?]
  · rfl
  · simpa using ha

lemma unicodeEscape?_eq_none (hbrace : line.head? ≠ some '\x7b') (hshort : line.length < 4 ∨ '\n' ∈ line.take 4) :
    unicodeEscape? line = none := by
  rcases line with _ | ⟨a, _ | ⟨b, _ | ⟨c, _ | ⟨d, line⟩⟩⟩⟩
  case cons.cons.cons.cons =>
    have ha : a ≠ '\x7b' := fun ha => hbrace (by rw [ha]; rfl)
    have hnewline : '\n' ∈ [a, b, c, d] := hshort.resolve_left (by simp)
    rw [unicodeEscape?_four ha, hexNumber?_eq_none hnewline, Option.bind_none]
  all_goals
    rw [unicodeEscape?]
    · rintro rest heq
      exact hbrace (by rw [heq]; rfl)
    · simp

lemma unicodeEscape?_append (h : EndsLine rest) : unicodeEscape? (line ++ rest) = unicodeEscape? line := by
  by_cases hbrace : line.head? = some '\x7b'
  · obtain ⟨line, rfl⟩ : ∃ digits, line = '\x7b' :: digits := by
      cases line with
      | nil => cases hbrace
      | cons c line => exact ⟨line, by rw [Option.some.inj hbrace]⟩
    have hdrop : line.drop (line.takeWhile isHex).length = line.dropWhile isHex := by
      simpa using drop_takeWhile_append isHex []
    simp only [List.cons_append, unicodeEscape?, takeWhile_append (by decide : isHex '\n' = false) h,
      drop_takeWhile_append, hdrop]
    cases line.dropWhile isHex with
    | nil => rcases h.eq_nil_or with rfl | ⟨more, rfl⟩ <;> rfl
    | cons c back =>
      by_cases hc : c = '\x7d'
      · subst hc
        rfl
      · simp [hc]
  · by_cases hlength : line.length < 4
    · rw [unicodeEscape?_eq_none hbrace (.inl hlength)]
      rcases h.eq_nil_or with rfl | ⟨more, rfl⟩
      · rw [List.append_nil, unicodeEscape?_eq_none hbrace (.inl hlength)]
      · refine unicodeEscape?_eq_none ?_ (.inr ?_)
        · cases line <;> simp_all
        · obtain ⟨room, hroom⟩ : ∃ room, 4 - line.length = room + 1 := ⟨3 - line.length, by omega⟩
          rw [List.take_append, hroom]
          exact List.mem_append_right _ List.mem_cons_self
    · rcases line with _ | ⟨a, _ | ⟨b, _ | ⟨c, _ | ⟨d, line⟩⟩⟩⟩
      case cons.cons.cons.cons =>
        have ha : a ≠ '\x7b' := fun ha => hbrace (by rw [ha]; rfl)
        rw [List.cons_append, List.cons_append, List.cons_append, List.cons_append, unicodeEscape?_four ha,
          unicodeEscape?_four ha]
      all_goals simp at hlength

lemma byteSize_of_isHex {digits : List Char} (h : ∀ c ∈ digits, isHex c = true) : byteSize digits = digits.length := by
  induction digits with
  | nil => rfl
  | cons c digits ih =>
    obtain ⟨hc, hdigits⟩ := List.forall_mem_cons.mp h
    rw [Text.byteSize_cons, ih hdigits, (utf8Size_of_isHex hc).1, List.length_cons, Nat.add_comm]

lemma isHex_of_hexNumber? {digits : List Char} {n : Nat} (h : hexNumber? digits = some n) :
    ∀ c ∈ digits, isHex c = true := by
  have hfold : ∀ {k n : Nat}, digits.foldlM (fun n d => (hexValue? d).map (n * 16 + ·)) k = some n →
      ∀ c ∈ digits, isHex c = true := by
    clear h
    induction digits with
    | nil => simp
    | cons d digits ih =>
      intro k n h
      rw [List.foldlM_cons] at h
      obtain ⟨next, hnext, h⟩ := Option.bind_eq_some_iff.mp h
      obtain ⟨value, hvalue, -⟩ := Option.map_eq_some_iff.mp hnext
      refine List.forall_mem_cons.mpr ⟨?_, ih h⟩
      rw [isHex, hvalue]
      rfl
  rw [hexNumber?] at h
  split_ifs at h
  exact hfold h

/-- An escape takes as many bytes as characters. -/
lemma exists_of_unicodeEscape? {c : Char} {count : Nat} (h : unicodeEscape? line = some (c, count)) :
    ∃ taken ahead, line = taken ++ ahead ∧ taken.length = count ∧ byteSize taken = count := by
  by_cases hbrace : line.head? = some '\x7b'
  · obtain ⟨line, rfl⟩ : ∃ digits, line = '\x7b' :: digits := by
      cases line with
      | nil => cases hbrace
      | cons c line => exact ⟨line, by rw [Option.some.inj hbrace]⟩
    have hdrop : line.drop (line.takeWhile isHex).length = line.dropWhile isHex := by
      simpa using drop_takeWhile_append isHex []
    simp only [unicodeEscape?, hdrop] at h
    obtain ⟨n, -, h⟩ := Option.bind_eq_some_iff.mp h
    split at h
    · rename_i back hback
      split_ifs at h
      obtain ⟨rfl, rfl⟩ := Prod.mk.inj (Option.some.inj h)
      have hsize : byteSize (line.takeWhile isHex) = (line.takeWhile isHex).length :=
        byteSize_of_isHex fun c hc => List.mem_takeWhile_imp hc
      have hchars : '\x7b'.utf8Size = 1 ∧ '\x7d'.utf8Size = 1 := ⟨rfl, rfl⟩
      refine ⟨'\x7b' :: (line.takeWhile isHex ++ ['\x7d']), back, ?_, by simp, ?_⟩
      · have hline := List.takeWhile_append_dropWhile (p := isHex) (l := line)
        rw [hback] at hline
        conv => lhs; rw [← hline]
        simp
      · simp only [Text.byteSize_cons, Text.byteSize_append, hsize, hchars, Text.byteSize_nil]
        omega
    · cases h
  · rcases line with _ | ⟨a, _ | ⟨b, _ | ⟨c, _ | ⟨d, line⟩⟩⟩⟩
    case cons.cons.cons.cons =>
      have ha : a ≠ '\x7b' := fun ha => hbrace (by rw [ha]; rfl)
      rw [unicodeEscape?_four ha] at h
      obtain ⟨n, hn, h⟩ := Option.bind_eq_some_iff.mp h
      obtain ⟨rfl, rfl⟩ := Prod.mk.inj (Option.some.inj h)
      exact ⟨[a, b, c, d], line, rfl, rfl, byteSize_of_isHex (isHex_of_hexNumber? hn)⟩
    all_goals
      rw [unicodeEscape?_eq_none hbrace (.inl (by simp))] at h
      cases h

/-- What the rest of a word does with a character that does not begin an escape. -/
lemma wordTail_cons {fuel offset : Nat} {read : List Char} {c : Char} (h : c = '\\' → line.head? ≠ some 'u') :
    wordTail (fuel + 1) read (c :: line, offset) =
      if (if read.isEmpty then Text.isIdentifierStart c else Text.isIdentifierPart c) then
        wordTail fuel (c :: read) (line, offset + c.utf8Size)
      else if c == '\\' then none else some (read, (c :: line, offset)) := by
  rw [wordTail]
  rintro rest rfl rfl
  exact h rfl rfl

lemma wordTail_of_endsLine (h : EndsLine rest) (fuel : Nat) (read : List Char) (offset : Nat) :
    wordTail (fuel + 1) read (rest, offset) = some (read, (rest, offset)) := by
  rcases h.eq_nil_or with rfl | ⟨more, rfl⟩
  · rw [wordTail]
  · have hnewline : Text.isIdentifierStart '\n' = false ∧ Text.isIdentifierPart '\n' = false := by decide
    rw [wordTail_cons (by simp), hnewline.1, hnewline.2]
    simp

/-- The rest of a word comes to the same part of the line, with any fuel that is enough. -/
lemma onLine_wordTail {rest' : List Char} (hline : '\n' ∉ line) (hrest : EndsLine rest) (hrest' : EndsLine rest')
    {fuel fuel' : Nat} (hfuel : line.length < fuel) (hfuel' : line.length < fuel') (read : List Char)
    (offset offset' : Nat) : BothFind line rest rest' offset offset'
      (wordTail fuel read (line ++ rest, offset)) (wordTail fuel' read (line ++ rest', offset')) := by
  induction fuel generalizing line fuel' read offset offset' with
  | zero => exact absurd hfuel (Nat.not_lt_zero _)
  | succ fuel ih =>
    obtain ⟨fuel', rfl⟩ : ∃ n, fuel' = n + 1 := Nat.exists_eq_add_one.mpr (by omega)
    cases line with
    | nil =>
      rw [List.nil_append, List.nil_append, wordTail_of_endsLine hrest, wordTail_of_endsLine hrest']
      exact .some ⟨rfl, OnLine.here⟩
    | cons c line =>
      have hline' := List.not_mem_of_not_mem_cons hline
      rw [List.length_cons] at hfuel hfuel'
      by_cases hescape : c = '\\' ∧ line.head? = some 'u'
      · obtain ⟨line, rfl⟩ : ∃ more, line = 'u' :: more := by
          cases line with
          | nil => cases hescape.2
          | cons d line => exact ⟨line, by rw [Option.some.inj hescape.2]⟩
        rw [hescape.1]
        simp only [List.cons_append, wordTail, unicodeEscape?_append hrest, unicodeEscape?_append hrest']
        cases hread : unicodeEscape? line with
        | none => exact .none
        | some found =>
          obtain ⟨d, count⟩ := found
          obtain ⟨taken, ahead, rfl, rfl, hsize⟩ := exists_of_unicodeEscape? hread
          dsimp only
          rw [List.append_assoc, List.append_assoc, List.drop_left, List.drop_left]
          generalize (if read.isEmpty then Text.isIdentifierStart d else Text.isIdentifierPart d) = allowed
          cases allowed with
          | false => exact .none
          | true =>
            have hlength : ahead.length ≤ ('u' :: (taken ++ ahead)).length := by
              simp only [List.length_cons, List.length_append]
              omega
            have hsize' : byteSize ('\\' :: 'u' :: taken) = 2 + taken.length := by
              have hchars : '\\'.utf8Size = 1 ∧ 'u'.utf8Size = 1 := ⟨rfl, rfl⟩
              simp only [Text.byteSize_cons, hsize, hchars]
              omega
            refine @BothFind.append _ _ _ _ _ _ ('\\' :: 'u' :: taken) _ _ ?_
            rw [hsize', ← Nat.add_assoc, ← Nat.add_assoc]
            exact ih (fun hmem => hline (by simp [hmem])) (by omega) (by omega) _ _ _
      · have hhead : ∀ {rest}, EndsLine rest → c = '\\' → (line ++ rest).head? ≠ some 'u' := by
          intro rest hrest hc hhead
          cases line with
          | nil => exact absurd (hrest _ hhead) (by decide)
          | cons d line => exact hescape ⟨hc, hhead⟩
        rw [List.cons_append, List.cons_append, wordTail_cons (hhead hrest), wordTail_cons (hhead hrest')]
        generalize (if read.isEmpty then Text.isIdentifierStart c else Text.isIdentifierPart c) = allowed
        cases allowed with
        | false =>
          rw [if_neg Bool.false_ne_true, if_neg Bool.false_ne_true]
          split_ifs
          · exact .none
          · exact .some ⟨rfl, OnLine.here⟩
        | true =>
          refine @BothFind.append _ _ _ _ _ _ [c] _ _ ?_
          exact ih hline' (by omega) (by omega) _ _ _

/-- A word without escapes. -/
lemma word?_plain {offset : Nat} (h : (line.dropWhile Text.isIdentifierPart).head? ≠ some '\\')
    (hrest : EndsLine rest) : word? (line ++ rest, offset) =
      if (line.takeWhile Text.isIdentifierPart).isEmpty then none
      else some (String.ofList (line.takeWhile Text.isIdentifierPart), false,
        (line.dropWhile Text.isIdentifierPart ++ rest, offset + byteSize (line.takeWhile Text.isIdentifierPart))) := by
  simp only [word?, takeWhile_append (by decide : Text.isIdentifierPart '\n' = false) hrest, drop_takeWhile_append]
  split
  · rename_i hmatch
    cases hback : line.dropWhile Text.isIdentifierPart with
    | nil =>
      rw [hback, List.nil_append] at hmatch
      exact absurd (hrest '\\' (by rw [hmatch]; rfl)) (by decide)
    | cons c back =>
      rw [hback, List.cons_append] at hmatch
      rw [hback, (List.cons.inj hmatch).1] at h
      exact absurd rfl h
  · rfl

/-- A word is the same, and it ends at the same part of the line. -/
lemma onLine_word? {rest' : List Char} (hline : '\n' ∉ line) (hrest : EndsLine rest) (hrest' : EndsLine rest')
    (offset offset' : Nat) : Option.Rel (fun found found' => found.1 = found'.1 ∧ found.2.1 = found'.2.1 ∧
        OnLine line rest rest' offset offset' found.2.2 found'.2.2)
      (word? (line ++ rest, offset)) (word? (line ++ rest', offset')) := by
  by_cases hescape : (line.dropWhile Text.isIdentifierPart).head? = some '\\'
  · have hnewline : Text.isIdentifierPart '\n' = false := by decide
    obtain ⟨back, hback⟩ : ∃ back, line.dropWhile Text.isIdentifierPart = '\\' :: back := by
      cases hline : line.dropWhile Text.isIdentifierPart with
      | nil => simp [hline] at hescape
      | cons c back =>
        rw [hline] at hescape
        exact ⟨back, by rw [Option.some.inj hescape]⟩
    have hlength : ∀ rest : List Char, line.length < (line ++ rest).length + 1 := fun rest => by
      rw [List.length_append]
      omega
    have htail := onLine_wordTail hline hrest hrest' (hlength rest) (hlength rest') [] offset offset'
    simp only [word?, takeWhile_append hnewline hrest, takeWhile_append hnewline hrest', drop_takeWhile_append, hback,
      List.cons_append]
    generalize wordTail _ [] (line ++ rest, offset) = found at htail ⊢
    generalize wordTail _ [] (line ++ rest', offset') = found' at htail ⊢
    cases htail with
    | none => exact .none
    | some htail => exact .some ⟨by rw [htail.1], rfl, htail.2⟩
  · rw [word?_plain hescape hrest, word?_plain hescape hrest']
    split_ifs
    · exact .none
    · exact .some ⟨rfl, rfl, line.takeWhile Text.isIdentifierPart, line.dropWhile Text.isIdentifierPart,
        List.takeWhile_append_dropWhile.symm, rfl, rfl⟩

/-! ## Punctuation -/

/-- Punctuation takes as many bytes as characters. A backtick and a sign of assignment take one. -/
lemma exists_of_punct? {s : List Char} {p : Punct} {n : Nat} (h : punct? s = some (p, n)) :
    ∃ taken ahead, s = taken ++ ahead ∧ taken.length = n ∧ byteSize taken = n ∧
      (p = .backtick → taken = ['\x60']) ∧ (p = .assign → taken = ['=']) := by
  unfold punct? at h
  split at h
  all_goals try split_ifs at h
  all_goals cases h
  all_goals
    first
    | exact ⟨[_], _, rfl, rfl, rfl, by simp, by simp⟩
    | exact ⟨[_, _], _, rfl, rfl, rfl, nofun, nofun⟩
    | exact ⟨[_, _, _], _, rfl, rfl, rfl, nofun, nofun⟩
    | exact ⟨[_, _, _, _], _, rfl, rfl, rfl, nofun, nofun⟩

set_option linter.auxLemma false in
/-- Punctuation does not go on behind a line feed. -/
lemma punct?_append_newline (line more : List Char) : punct? (line ++ '\n' :: more) = punct? line := by
  -- Unfolded to its tests of characters, the function looks at four of them, and a line feed passes no test.
  rcases line with _ | ⟨a, _ | ⟨b, _ | ⟨c, _ | ⟨d, ahead⟩⟩⟩⟩
  all_goals
    delta punct? punct?.match_1
    rfl

lemma punct?_append (hrest : EndsLine rest) : punct? (line ++ rest) = punct? line := by
  obtain rfl | ⟨more, rfl⟩ := hrest.eq_nil_or
  · rw [List.append_nil]
  · exact punct?_append_newline line more

/-! ## Tokens -/

variable {rest' : List Char} {offset offset' : Nat}

lemma BothFind.orInvalid {c : Char} {found found' : Option (Token × Place)}
    (h : BothFind (c :: line) rest rest' offset offset' found found') :
    (orInvalid (c :: line ++ rest, offset) found).1 = (orInvalid (c :: line ++ rest', offset') found').1 ∧
      OnLine (c :: line) rest rest' offset offset' (orInvalid (c :: line ++ rest, offset) found).2
        (orInvalid (c :: line ++ rest', offset') found').2 := by
  cases h with
  | none => exact ⟨rfl, [c], line, rfl, rfl, rfl⟩
  | some h => exact h

lemma onLine_punct? (hrest : EndsLine rest) (hrest' : EndsLine rest') :
    BothFind line rest rest' offset offset'
      ((punct? (line ++ rest)).map fun (p, n) => (Token.punct p, ((line ++ rest).drop n, offset + n)))
      ((punct? (line ++ rest')).map fun (p, n) => (Token.punct p, ((line ++ rest').drop n, offset' + n))) := by
  rw [punct?_append hrest, punct?_append hrest']
  cases hfound : punct? line with
  | none => exact .none
  | some found =>
    obtain ⟨p, n⟩ := found
    obtain ⟨taken, ahead, rfl, rfl, hsize, -⟩ := exists_of_punct? hfound
    refine .some ⟨rfl, taken, ahead, rfl, ?_, ?_⟩
    all_goals simp [hsize, List.append_assoc]

/-- How a token that is no string is read, by its first character. -/
lemma read_cons {c : Char} (hstring : c ≠ '"' ∧ c ≠ '\'') (s : List Char) (offset : Nat) :
    read (c :: s, offset) = orInvalid (c :: s, offset) (
      if Text.isIdentifierStart c || c == '\\' then
        (word? (c :: s, offset)).map fun (name, escaped, behind) => (.word name escaped, behind)
      else if c.isDigit || (c == '.' && s.head?.any Char.isDigit) then
        (number? (c :: s, offset)).map fun behind => (.number, behind)
      else if c == '#' then
        if s.head?.any fun d => Text.isIdentifierStart d || d == '\\' then
          (word? (s, offset + 1)).map fun (_, _, behind) => (.privateName, behind)
        else none
      else (punct? (c :: s)).map fun (p, n) => (.punct p, ((c :: s).drop n, offset + n))) := by
  have hquote : ¬ (c == '"' || c == '\'') = true := by simpa using hstring
  simp only [read, if_neg hquote]

/-- A token of punctuation is the punctuation that the text begins with. -/
lemma punct?_of_read {place behind : Place} {p : Punct} (h : read place = (.punct p, behind)) :
    ∃ n, punct? place.1 = some (p, n) ∧ behind = (place.1.drop n, place.2 + n) := by
  obtain ⟨s, offset⟩ := place
  cases s with
  | nil => cases h
  | cons c s =>
    by_cases hquote : c = '"' ∨ c = '\''
    · have hread : read (c :: s, offset) = orInvalid (c :: s, offset)
          ((skipString c .text s (offset + 1)).map fun behind => (.string, behind)) := by
        rcases hquote with rfl | rfl <;> rfl
      rw [hread] at h
      cases hstring : skipString c .text s (offset + 1) <;> simp [hstring, orInvalid] at h
    · rw [read_cons (not_or.mp hquote)] at h
      split_ifs at h
      · cases hword : word? (c :: s, offset) <;> simp [hword, orInvalid] at h
      · cases hnumber : number? (c :: s, offset) <;> simp [hnumber, orInvalid] at h
      · cases hname : word? (s, offset + 1) <;> simp [hname, orInvalid] at h
      · simp [orInvalid] at h
      · cases hpunct : punct? (c :: s) with
        | none => simp [hpunct, orInvalid] at h
        | some found =>
          obtain ⟨q, n⟩ := found
          simp only [hpunct, Option.map_some, orInvalid, Prod.mk.injEq, Token.punct.injEq] at h
          exact ⟨n, by rw [h.1], h.2.symm⟩

/-- A token that is no string is the same, and it ends at the same part of the line. -/
lemma onLine_read {c : Char} (hstring : c ≠ '"' ∧ c ≠ '\'') (hline : '\n' ∉ c :: line)
    (hrest : EndsLine rest) (hrest' : EndsLine rest') (offset offset' : Nat) :
    (read (c :: line ++ rest, offset)).1 = (read (c :: line ++ rest', offset')).1 ∧
      OnLine (c :: line) rest rest' offset offset' (read (c :: line ++ rest, offset)).2
        (read (c :: line ++ rest', offset')).2 := by
  have hstart : (fun d => Text.isIdentifierStart d || d == '\\') '\n' = false := by decide
  rw [List.cons_append, List.cons_append, read_cons hstring, read_cons hstring]
  refine BothFind.orInvalid ?_
  rw [head?_any_append (by decide : Char.isDigit '\n' = false) hrest,
    head?_any_append (by decide : Char.isDigit '\n' = false) hrest', head?_any_append hstart hrest,
    head?_any_append hstart hrest']
  by_cases hword : (Text.isIdentifierStart c || c == '\\') = true
  · rw [if_pos hword, if_pos hword]
    have hfound := onLine_word? hline hrest hrest' offset offset'
    rw [List.cons_append, List.cons_append] at hfound
    generalize word? (c :: (line ++ rest), offset) = found at hfound ⊢
    generalize word? (c :: (line ++ rest'), offset') = found' at hfound ⊢
    cases hfound with
    | none => exact .none
    | some h => exact .some ⟨congrArg₂ Token.word h.1 h.2.1, h.2.2⟩
  rw [if_neg hword, if_neg hword]
  by_cases hnumber : (c.isDigit || c == '.' && line.head?.any Char.isDigit) = true
  · rw [if_pos hnumber, if_pos hnumber]
    have hfound := staysOnLine_number? hline hrest hrest' offset offset'
    rw [List.cons_append, List.cons_append] at hfound
    generalize number? (c :: (line ++ rest), offset) = found at hfound ⊢
    generalize number? (c :: (line ++ rest'), offset') = found' at hfound ⊢
    cases hfound with
    | none => exact .none
    | some h => exact .some ⟨rfl, h⟩
  rw [if_neg hnumber, if_neg hnumber]
  split_ifs with hhash
  · have hsize : c.utf8Size = 1 := by
      rw [beq_iff_eq.mp hhash]
      rfl
    have hfound := onLine_word? (List.not_mem_of_not_mem_cons hline) hrest hrest' (offset + 1) (offset' + 1)
    generalize word? (line ++ rest, offset + 1) = found at hfound ⊢
    generalize word? (line ++ rest', offset' + 1) = found' at hfound ⊢
    cases hfound with
    | none => exact .none
    | some h => exact .some ⟨rfl, h.2.2.cons hsize⟩
  · exact .none
  · exact onLine_punct? hrest hrest'

end

/-! ## Regular expressions -/

lemma skipRegex_cons {inBrackets : Bool} {c : Char} {s : List Char} (h : c = '\\' → s = []) (offset : Nat) :
    skipRegex inBrackets (c :: s) offset =
      if isLineTerminator c then none
      else if c == '/' && !inBrackets then some (s, offset + 1)
      else if c == '[' then skipRegex true s (offset + 1)
      else if c == ']' then skipRegex false s (offset + 1)
      else skipRegex inBrackets s (offset + c.utf8Size) := by
  rw [skipRegex]
  rintro d s rfl rfl
  cases h rfl

lemma skipRegex_of_endsLine {rest : List Char} (h : EndsLine rest) (inBrackets : Bool) (offset : Nat) :
    skipRegex inBrackets rest offset = none := by
  rcases h.eq_nil_or with rfl | ⟨more, rfl⟩
  · rw [skipRegex]
  · rw [skipRegex_cons (by simp)]
    exact if_pos (by decide)

/-- A regular expression ends on its line. -/
lemma staysOnLine_skipRegex (inBrackets : Bool) : StaysOnLine fun place => skipRegex inBrackets place.1 place.2 := by
  intro line rest rest' hline hrest hrest' offset offset'
  -- An escape takes two characters at once.
  obtain ⟨bound, hbound⟩ : ∃ bound, line.length ≤ bound := ⟨_, Nat.le_refl _⟩
  induction bound generalizing line inBrackets offset offset' with
  | zero =>
    obtain rfl : line = [] := List.length_eq_zero_iff.mp (Nat.le_zero.mp hbound)
    simp only [List.nil_append, skipRegex_of_endsLine hrest, skipRegex_of_endsLine hrest']
    exact .none
  | succ bound ih =>
    cases line with
    | nil =>
      simp only [List.nil_append, skipRegex_of_endsLine hrest, skipRegex_of_endsLine hrest']
      exact .none
    | cons c line =>
      have hline' := List.not_mem_of_not_mem_cons hline
      replace hbound := Nat.le_of_succ_le_succ hbound
      simp only [List.cons_append]
      by_cases hc : c = '\\'
      · subst hc
        cases line with
        | nil =>
          have hopen : ∀ {rest} offset, EndsLine rest → skipRegex inBrackets ('\\' :: rest) offset = none :=
            fun offset h => by
              rcases h.eq_nil_or with rfl | ⟨more, rfl⟩
              · simp [skipRegex, isLineTerminator]
              · simp [skipRegex, isLineTerminator]
          rw [List.nil_append, List.nil_append, hopen _ hrest, hopen _ hrest']
          exact .none
        | cons d line =>
          simp only [List.cons_append, skipRegex]
          split_ifs
          · exact .none
          · exact .cons rfl <| .cons rfl <|
              ih inBrackets (List.not_mem_of_not_mem_cons hline') _ _ (Nat.le_of_succ_le hbound)
      · have hplain : ∀ rest, c = '\\' → line ++ rest = [] := fun rest h => absurd h hc
        rw [skipRegex_cons (hplain rest), skipRegex_cons (hplain rest')]
        split_ifs with hterminator hcloses hopens hends
        · exact .none
        · refine .some (OnLine.here.cons ?_)
          rw [beq_iff_eq.mp (Bool.and_eq_true_iff.mp hcloses).1]
          rfl
        · refine (ih true hline' _ _ hbound).cons ?_
          rw [beq_iff_eq.mp hopens]
          rfl
        · refine (ih false hline' _ _ hbound).cons ?_
          rw [beq_iff_eq.mp hends]
          rfl
        · exact (ih inBrackets hline' _ _ hbound).cons rfl

end Token

end SpaMigration.Syntax
