import SpaMigration.Proofs.LineTokens
import SpaMigration.Proofs.SideBySide

/-!
# Tokens side by side

A token is the same in a text and in its characters that stay, and it ends at the corresponding place. Most tokens
end with their line, which is the same in both. A string goes on behind an escaped line feed only, behind which no line
goes. In a template, in text between tags and in the string of an attribute there may be lines that go, none of which
closes them.
-/
namespace SpaMigration.Syntax

open Text (byteSize)
open Token (Place StringMode isHex skipString)

section

variable {markup : Bool} {above : Above} {pieces : List Piece} {offset offset' : Nat} {place place' : Place}

/-! ## On a line -/

@[simp] lemma whole_map_char (line : List Char) : whole (line.map .char) = line := by
  induction line with
  | nil => rfl
  | cons c line ih => rw [List.map_cons, whole, ih]

@[simp] lemma kept_map_char (line : List Char) : kept (line.map .char) = line := by
  induction line with
  | nil => rfl
  | cons c line ih => rw [List.map_cons, kept, ih]

/-- The line that comes first, in pieces of which the first one stays. -/
structure FirstLine (pieces : List Piece) (line : List Char) (ahead : List Piece) : Prop where
  eq : pieces = line.map .char ++ ahead
  unbroken : '\n' ∉ line
  ends : EndsLine (whole ahead)
  ends' : EndsLine (kept ahead)
  starts : startsKept ahead

lemma FirstLine.whole_eq {line : List Char} {ahead : List Piece} (h : FirstLine pieces line ahead) :
    whole pieces = line ++ whole ahead := by
  rw [h.eq, whole_append, whole_map_char]

lemma FirstLine.kept_eq {line : List Char} {ahead : List Piece} (h : FirstLine pieces line ahead) :
    kept pieces = line ++ kept ahead := by
  rw [h.eq, kept_append, kept_map_char]

lemma exists_firstLine (hstart : startsKept pieces) (h : Harmless markup above pieces) :
    ∃ line ahead, FirstLine pieces line ahead := by
  induction pieces generalizing above with
  | nil => exact ⟨[], [], rfl, List.not_mem_nil, by simp [EndsLine, whole], by simp [EndsLine, kept], trivial⟩
  | cons piece pieces ih =>
    cases piece with
    | line chars => exact hstart.elim
    | char c =>
      by_cases hc : c = '\n'
      · subst hc
        refine ⟨[], .char '\n' :: pieces, rfl, List.not_mem_nil, ?_, ?_, trivial⟩
        · simp [EndsLine, whole]
        · simp [EndsLine, kept]
      · obtain ⟨line, ahead, hline⟩ := ih (h.1 hc) h.of_cons
        refine ⟨c :: line, ahead, by rw [hline.eq]; rfl, ?_, hline.ends, hline.ends', hline.starts⟩
        exact List.not_mem_cons_of_ne_of_not_mem (Ne.symm hc) hline.unbroken

/-- Places on the first line are reached side by side. -/
lemma FirstLine.reached {line : List Char} {ahead : List Piece} (h : FirstLine pieces line ahead)
    (hplace : OnLine line (whole ahead) (kept ahead) offset offset' place place') :
    Reached pieces offset offset' place place' := by
  obtain ⟨passed, behind, rfl, rfl, rfl⟩ := hplace
  refine ⟨passed.map .char, behind.map .char ++ ahead, by rw [h.eq]; simp, ?_, by simp, by simp⟩
  cases behind with
  | nil => exact h.starts
  | cons c behind => trivial

lemma FirstLine.bothReach {line : List Char} {ahead : List Piece} {found found' : Option Place}
    (h : FirstLine pieces line ahead) (hfound : BothStay line (whole ahead) (kept ahead) offset offset' found found') :
    BothReach pieces offset offset' found found' := by
  cases hfound with
  | none => exact .none
  | some hplace => exact .some (h.reached hplace)

/-- A search that stays on its line finds places side by side. -/
lemma StaysOnLine.bothReach {search : Place → Option Place} (hsearch : StaysOnLine search) (hstart : startsKept pieces)
    (h : Harmless markup above pieces) (offset offset' : Nat) :
    BothReach pieces offset offset' (search (whole pieces, offset)) (search (kept pieces, offset')) := by
  obtain ⟨line, ahead, hline⟩ := exists_firstLine hstart h
  have hfound := hsearch hline.unbroken hline.ends hline.ends' offset offset'
  rw [← hline.whole_eq, ← hline.kept_eq] at hfound
  exact hline.bothReach hfound

/-! ## Strings -/

lemma BothReach.char {c : Char} {size : Nat} {found found' : Option Place} (hsize : c.utf8Size = size)
    (h : BothReach pieces (offset + size) (offset' + size) found found') :
    BothReach (.char c :: pieces) offset offset' found found' := by
  cases h with
  | none => exact .none
  | some h => exact .some (h.char hsize)

lemma BothReach.line {chars : List Char} {found found' : Option Place}
    (h : BothReach pieces (offset + byteSize chars) offset' found found') :
    BothReach (.line chars :: pieces) offset offset' found found' := by
  cases h with
  | none => exact .none
  | some h => exact .some h.line

lemma FirstLine.startsKept {line : List Char} {ahead : List Piece} (h : FirstLine pieces line ahead) :
    startsKept pieces := by
  rw [h.eq]
  cases line with
  | nil => exact h.starts
  | cons c line => trivial

lemma FirstLine.exists_cons {c : Char} {line : List Char} {ahead : List Piece}
    (h : FirstLine pieces (c :: line) ahead) : ∃ behind, pieces = .char c :: behind ∧ FirstLine behind line ahead :=
  ⟨_, h.eq, rfl, List.not_mem_of_not_mem_cons h.unbroken, h.ends, h.ends', h.starts⟩

/-- Behind the first line there is nothing, or its line feed, which stays. -/
lemma FirstLine.eq_nil_or {line : List Char} {ahead : List Piece} (h : FirstLine pieces line ahead) :
    ahead = [] ∨ ∃ more, ahead = .char '\n' :: more := by
  cases ahead with
  | nil => exact .inl rfl
  | cons piece more =>
    cases piece with
    | line chars => exact h.starts.elim
    | char c => exact .inr ⟨more, by rw [h.ends c rfl]⟩

variable {quote : Char} {line rest : List Char}

/-- A string does not go on behind the end of a line. -/
lemma skipString_of_endsLine (mode : StringMode) (h : EndsLine rest) (hquote : quote ≠ '\n') (offset : Nat) :
    skipString quote mode rest offset = none := by
  rcases h.eq_nil_or with rfl | ⟨more, rfl⟩
  · cases mode <;> simp [skipString]
  · cases mode with
    | text => simp [skipString, Ne.symm hquote]
    | braces value =>
      have hnewline : Token.hexValue? '\n' = none := by decide
      cases value <;> simp [skipString, hnewline]

/-- An escape of one byte is complete with two digits. -/
lemma skipString_hex_eq_none (h : ∀ a b more, rest = a :: b :: more → ¬ (isHex a && isHex b) = true) (offset : Nat) :
    skipString quote .text ('\\' :: 'x' :: rest) offset = none := by
  rcases rest with _ | ⟨a, _ | ⟨b, more⟩⟩
  · simp [skipString]
  · simp [skipString]
  · rw [skipString, if_neg (h a b more rfl)]

/-- An escape of a character is complete with four digits, or with some in braces. -/
lemma skipString_unicode_eq_none (hbrace : rest.head? ≠ some '\x7b')
    (h : ∀ a b c d more, rest = a :: b :: c :: d :: more → ¬ (isHex a && isHex b && isHex c && isHex d) = true)
    (offset : Nat) : skipString quote .text ('\\' :: 'u' :: rest) offset = none := by
  have hopen : ∀ more, rest ≠ '\x7b' :: more := fun more heq => hbrace (by rw [heq]; rfl)
  rcases rest with _ | ⟨a, _ | ⟨b, _ | ⟨c, _ | ⟨d, more⟩⟩⟩⟩
  case cons.cons.cons.cons =>
    rw [skipString, if_neg (h a b c d more rfl)]
    exact fun ha => hopen _ (by rw [ha])
  all_goals
    rw [skipString]
    · simp
    all_goals simp_all

/-- A character that begins no escape. -/
lemma skipString_plain {c : Char} (hc : c ≠ '\\') (offset : Nat) : skipString quote .text (c :: rest) offset =
    if c == quote then some (rest, offset + 1)
    else if c == '\n' || c == '\r' || c == '\\' then none
    else skipString quote .text rest (offset + c.utf8Size) := by
  rw [skipString] <;> simp [hc]

/-- An escape of one character that stands for itself or for a control character. -/
lemma skipString_escape {c : Char} (hx : c ≠ 'x') (hu : c ≠ 'u') (hzero : c ≠ '0')
    (hreturn : c = '\r' → rest.head? ≠ some '\n') (offset : Nat) :
    skipString quote .text ('\\' :: c :: rest) offset =
      if c.isDigit then none else skipString quote .text rest (offset + 1 + c.utf8Size) := by
  rw [skipString]
  · simp [hx, hu, hzero]
  · rintro more rfl rfl
    exact hreturn rfl rfl
  all_goals simp [hx, hu, hzero]

variable (markup quote) in
/-- Strings of up to a number of pieces end side by side. -/
def StringsAbreast (bound : Nat) : Prop :=
  ∀ (mode : StringMode) {above : Above} {pieces : List Piece}, startsKept pieces → Harmless markup above pieces →
    pieces.length ≤ bound → ∀ offset offset', BothReach pieces offset offset'
      (skipString quote mode (whole pieces) offset) (skipString quote mode (kept pieces) offset')

section

variable {ahead : List Piece} {bound : Nat}

lemma prefix_of_endsLine {digits more : List Char} (hdigits : '\n' ∉ digits) (h : EndsLine rest)
    (heq : line ++ rest = digits ++ more) : digits <+: line := by
  induction digits generalizing line with
  | nil => exact List.nil_prefix
  | cons d digits ih =>
    obtain ⟨hd, hothers⟩ := List.ne_and_not_mem_of_not_mem_cons hdigits
    cases line with
    | nil => exact absurd (h d (by rw [List.nil_append] at heq; rw [heq]; rfl)) (Ne.symm hd)
    | cons c line =>
      obtain ⟨rfl, hlater⟩ := List.cons.inj heq
      exact List.cons_prefix_cons.mpr ⟨rfl, ih hothers hlater⟩

/-- What the text or its characters that stay begin with stands on the first line, if there is no line feed in it. -/
lemma FirstLine.prefix {digits : List Char} (h : FirstLine pieces line ahead) (hdigits : '\n' ∉ digits)
    (heq : digits <+: whole pieces ∨ digits <+: kept pieces) : digits <+: line := by
  rcases heq with ⟨more, heq⟩ | ⟨more, heq⟩
  · exact prefix_of_endsLine hdigits h.ends (h.whole_eq ▸ heq.symm)
  · exact prefix_of_endsLine hdigits h.ends' (h.kept_eq ▸ heq.symm)

lemma not_mem_of_isHex {digits : List Char} (h : ∀ d ∈ digits, isHex d = true) : '\n' ∉ digits :=
  fun hmem => (Token.utf8Size_of_isHex (h _ hmem)).2 rfl

lemma hex_sideBySide (ih : StringsAbreast markup quote bound) (hline : FirstLine pieces line ahead)
    (h : Harmless markup above pieces) (hbound : pieces.length ≤ bound) :
    BothReach (.char '\\' :: .char 'x' :: pieces) offset offset'
      (skipString quote .text ('\\' :: 'x' :: whole pieces) offset)
      (skipString quote .text ('\\' :: 'x' :: kept pieces) offset') := by
  by_cases hdigits : ∃ a b more, line = a :: b :: more ∧ (isHex a && isHex b) = true
  · obtain ⟨a, b, line, rfl, hhex⟩ := hdigits
    obtain ⟨pieces, rfl, hnext⟩ := hline.exists_cons
    obtain ⟨pieces, rfl, hbehind⟩ := hnext.exists_cons
    obtain ⟨ha, hb⟩ := Bool.and_eq_true_iff.mp hhex
    rw [whole, kept, whole, kept, skipString, skipString, if_pos hhex, if_pos hhex]
    have hlength : pieces.length ≤ bound := Nat.le_of_succ_le (Nat.le_of_succ_le hbound)
    exact .char rfl <| .char rfl <| .char (Token.utf8Size_of_isHex ha).1 <| .char (Token.utf8Size_of_isHex hb).1 <|
      ih .text hbehind.startsKept h.of_cons.of_cons hlength _ _
  · have hnone : ∀ {s : List Char}, (∀ digits, digits <+: s → '\n' ∉ digits → digits <+: line) → ∀ a b more,
        s = a :: b :: more → ¬ (isHex a && isHex b) = true := by
      rintro s hprefix a b more rfl hhex
      obtain ⟨ha, hb⟩ := Bool.and_eq_true_iff.mp hhex
      obtain ⟨t, ht⟩ := hprefix [a, b] ⟨more, rfl⟩ (not_mem_of_isHex (by simp [ha, hb]))
      exact hdigits ⟨a, b, t, ht.symm, hhex⟩
    rw [skipString_hex_eq_none (hnone fun digits hdigits hnewline => hline.prefix hnewline (.inl hdigits)),
      skipString_hex_eq_none (hnone fun digits hdigits hnewline => hline.prefix hnewline (.inr hdigits))]
    exact .none

lemma unicode_sideBySide (ih : StringsAbreast markup quote bound) (hline : FirstLine pieces line ahead)
    (h : Harmless markup above pieces) (hbound : pieces.length ≤ bound) :
    BothReach (.char '\\' :: .char 'u' :: pieces) offset offset'
      (skipString quote .text ('\\' :: 'u' :: whole pieces) offset)
      (skipString quote .text ('\\' :: 'u' :: kept pieces) offset') := by
  by_cases hbrace : line.head? = some '\x7b'
  · obtain ⟨line, rfl⟩ := List.head?_eq_some_iff.mp hbrace
    obtain ⟨pieces, rfl, hbehind⟩ := hline.exists_cons
    rw [whole, kept, skipString, skipString]
    exact .char rfl <| .char rfl <| .char rfl <|
      ih (.braces none) hbehind.startsKept h.of_cons (Nat.le_of_succ_le hbound) _ _
  have hopen : ∀ {s : List Char}, (∀ digits, digits <+: s → '\n' ∉ digits → digits <+: line) →
      s.head? ≠ some '\x7b' := by
    intro s hprefix hhead
    obtain ⟨more, rfl⟩ := List.head?_eq_some_iff.mp hhead
    obtain ⟨t, rfl⟩ := hprefix ['\x7b'] ⟨more, rfl⟩ (by simp)
    exact hbrace rfl
  have hwhole := hopen fun digits hdigits hnewline => hline.prefix hnewline (.inl hdigits)
  have hkept := hopen fun digits hdigits hnewline => hline.prefix hnewline (.inr hdigits)
  by_cases hdigits : ∃ a b c d more, line = a :: b :: c :: d :: more ∧
      (isHex a && isHex b && isHex c && isHex d) = true
  · obtain ⟨a, b, c, d, line, rfl, hhex⟩ := hdigits
    obtain ⟨pieces, rfl, hline₁⟩ := hline.exists_cons
    obtain ⟨pieces, rfl, hline₂⟩ := hline₁.exists_cons
    obtain ⟨pieces, rfl, hline₃⟩ := hline₂.exists_cons
    obtain ⟨pieces, rfl, hbehind⟩ := hline₃.exists_cons
    obtain ⟨⟨⟨ha, hb⟩, hc⟩, hd⟩ : ((isHex a = true ∧ isHex b = true) ∧ isHex c = true) ∧ isHex d = true := by
      simpa only [Bool.and_eq_true] using hhex
    have hlength : pieces.length ≤ bound := by
      simp only [List.length_cons] at hbound
      omega
    have ha' : a ≠ '\x7b' := by
      rintro rfl
      exact hbrace rfl
    simp only [whole, kept]
    rw [skipString, skipString, if_pos hhex, if_pos hhex]
    · exact .char rfl <| .char rfl <| .char (Token.utf8Size_of_isHex ha).1 <|
        .char (Token.utf8Size_of_isHex hb).1 <| .char (Token.utf8Size_of_isHex hc).1 <|
        .char (Token.utf8Size_of_isHex hd).1 <|
        ih .text hbehind.startsKept h.of_cons.of_cons.of_cons.of_cons hlength _ _
    all_goals exact ha'
  · have hnone : ∀ {s : List Char}, (∀ digits, digits <+: s → '\n' ∉ digits → digits <+: line) →
        ∀ a b c d more, s = a :: b :: c :: d :: more → ¬ (isHex a && isHex b && isHex c && isHex d) = true := by
      rintro s hprefix a b c d more rfl hhex
      obtain ⟨⟨⟨ha, hb⟩, hc⟩, hd⟩ : ((isHex a = true ∧ isHex b = true) ∧ isHex c = true) ∧ isHex d = true := by
        simpa only [Bool.and_eq_true] using hhex
      obtain ⟨t, ht⟩ := hprefix [a, b, c, d] ⟨more, rfl⟩ (not_mem_of_isHex (by simp [ha, hb, hc, hd]))
      exact hdigits ⟨a, b, c, d, t, ht.symm, hhex⟩
    rw [skipString_unicode_eq_none hwhole
        (hnone fun digits hdigits hnewline => hline.prefix hnewline (.inl hdigits)),
      skipString_unicode_eq_none hkept
        (hnone fun digits hdigits hnewline => hline.prefix hnewline (.inr hdigits))]
    exact .none

/-- An escape ends side by side, and so does the string behind it. -/
lemma escape_sideBySide (hquote : quote ≠ '\n' ∧ quote ≠ '\\') (ih : StringsAbreast markup quote bound)
    (hline : FirstLine pieces line ahead) (h : Harmless markup above (.char '\\' :: pieces))
    (hbound : pieces.length ≤ bound) :
    BothReach (.char '\\' :: pieces) offset offset' (skipString quote .text ('\\' :: whole pieces) offset)
      (skipString quote .text ('\\' :: kept pieces) offset') := by
  have hbreaks : ¬ breaksString pieces := h.2.1 rfl
  have hrest := h.of_cons
  cases line with
  | nil =>
    obtain rfl : pieces = ahead := hline.eq
    rcases hline.eq_nil_or with rfl | ⟨more, rfl⟩
    · simp [whole, kept, skipString, Ne.symm hquote.2]
    · rw [whole, kept, skipString_escape (by decide) (by decide) (by decide) (by simp),
        skipString_escape (by decide) (by decide) (by decide) (by simp)]
      exact .char rfl (.char rfl (ih .text (not_not.mp hbreaks) hrest.of_cons (Nat.le_of_succ_le hbound) _ _))
  | cons c line =>
    obtain ⟨pieces, rfl, hbehind⟩ := hline.exists_cons
    have hlength : pieces.length ≤ bound := Nat.le_of_succ_le hbound
    have hwhole := hbehind.whole_eq
    have hkept := hbehind.kept_eq
    rw [whole, kept]
    by_cases hx : c = 'x'
    · rw [hx]
      exact hex_sideBySide ih hbehind hrest.of_cons hlength
    by_cases hu : c = 'u'
    · rw [hu]
      exact unicode_sideBySide ih hbehind hrest.of_cons hlength
    by_cases hzero : c = '0'
    · subst hzero
      cases line with
      | nil =>
        have hnone : ∀ {rest} offset, EndsLine rest → skipString quote .text ('\\' :: '0' :: rest) offset = none := by
          intro rest offset hends
          have hstops := skipString_of_endsLine .text hends hquote.1 (offset + 2)
          rcases hends.eq_nil_or with rfl | ⟨more, rfl⟩
          · simp [skipString]
          · rw [skipString, hstops]
            exact ite_self _
        rw [hwhole, hkept, List.nil_append, List.nil_append, hnone _ hline.ends, hnone _ hline.ends']
        exact .none
      | cons d line =>
        obtain ⟨pieces, rfl, -⟩ := hbehind.exists_cons
        rw [whole, kept, skipString, skipString]
        split_ifs
        · exact .none
        · exact .char rfl (.char rfl (ih .text hbehind.startsKept hrest.of_cons hlength _ _))
    by_cases hreturn : c = '\r' ∧ line = [] ∧ ahead ≠ []
    · obtain ⟨rfl, rfl, hahead⟩ := hreturn
      obtain ⟨more, rfl⟩ := hbehind.eq_nil_or.resolve_left hahead
      obtain rfl : pieces = .char '\n' :: more := hbehind.eq
      rw [whole, kept, skipString, skipString]
      exact .char rfl <| .char rfl <| .char rfl <|
        ih .text (not_not.mp hbreaks) hrest.of_cons.of_cons (Nat.le_of_succ_le hlength) _ _
    · have hhead : ∀ {rest}, (ahead = [] → rest = []) → c = '\r' → (line ++ rest).head? ≠ some '\n' := by
        intro rest hrest hc hhead
        cases line with
        | nil =>
          by_cases hahead : ahead = []
          · rw [hrest hahead] at hhead
            cases hhead
          · exact hreturn ⟨hc, rfl, hahead⟩
        | cons d line => exact hbehind.unbroken (List.mem_cons.mpr (.inl (Option.some.inj hhead).symm))
      rw [hwhole, hkept, skipString_escape hx hu hzero (hhead fun h => by rw [h]; rfl),
        skipString_escape hx hu hzero (hhead fun h => by rw [h]; rfl), ← hwhole, ← hkept]
      split_ifs
      · exact .none
      · exact .char rfl (.char rfl (ih .text hbehind.startsKept hrest.of_cons hlength _ _))

end

/-- A string ends side by side. A line that goes does not come behind an escaped line feed. -/
lemma skipString_sideBySide (hquote : quote = '"' ∨ quote = '\'') (mode : StringMode)
    (hstart : startsKept pieces) (h : Harmless markup above pieces) (offset offset' : Nat) :
    BothReach pieces offset offset' (skipString quote mode (whole pieces) offset)
      (skipString quote mode (kept pieces) offset') := by
  obtain ⟨hnewline, hescape, hquoteSize⟩ : quote ≠ '\n' ∧ quote ≠ '\\' ∧ quote.utf8Size = 1 := by
    rcases hquote with rfl | rfl <;> decide
  -- An escape takes several characters at once.
  obtain ⟨bound, hbound⟩ : ∃ bound, pieces.length ≤ bound := ⟨_, Nat.le_refl _⟩
  induction bound generalizing mode above pieces offset offset' with
  | zero =>
    obtain rfl : pieces = [] := List.length_eq_zero_iff.mp (Nat.le_zero.mp hbound)
    cases mode <;> simp [whole, kept, skipString]
  | succ bound ih =>
    obtain ⟨line, ahead, hline⟩ := exists_firstLine hstart h
    cases line with
    | nil =>
      rw [hline.whole_eq, hline.kept_eq, List.nil_append, List.nil_append, skipString_of_endsLine mode hline.ends hnewline,
        skipString_of_endsLine mode hline.ends' hnewline]
      exact .none
    | cons c line =>
      obtain ⟨pieces, rfl, hbehind⟩ := hline.exists_cons
      have hrest := h.of_cons
      replace hbound := Nat.le_of_succ_le_succ hbound
      rw [whole, kept]
      cases mode with
      | braces value =>
        simp only [skipString]
        cases hdigit : Token.hexValue? c with
        | some digit =>
          have hsize : c.utf8Size = 1 := (Token.utf8Size_of_isHex (by rw [isHex, hdigit]; rfl)).1
          dsimp only
          split_ifs
          · exact .char hsize (ih _ hbehind.startsKept hrest _ _ hbound)
          · exact .none
        | none =>
          cases value with
          | none => exact .none
          | some value =>
            dsimp only
            split_ifs with hcloses
            · have hsize : c.utf8Size = 1 := by
                rw [beq_iff_eq.mp hcloses]
                rfl
              exact .char hsize (ih _ hbehind.startsKept hrest _ _ hbound)
            · exact .none
      | text =>
        by_cases hc : c = '\\'
        · subst hc
          exact escape_sideBySide ⟨hnewline, hescape⟩ (fun mode _ _ hstart h hbound offset offset' =>
            ih mode hstart h offset offset' hbound) hbehind h hbound
        · rw [skipString_plain hc, skipString_plain hc]
          split_ifs with hends hbroken
          · have hsize : c.utf8Size = 1 := by rw [beq_iff_eq.mp hends, hquoteSize]
            exact .some (.char hsize (.here hbehind.startsKept))
          · exact .none
          · exact .char rfl (ih .text hbehind.startsKept hrest _ _ hbound)

/-! ## Tokens -/

/-- What comes behind a gap does not begin with a line feed. -/
lemma head?_of_skipGap {gap : Token.Gap} {s : List Char} {newline : Bool} {found : Place × Bool}
    (h : Token.skipGap gap s offset newline = some found) : found.1.1.head? ≠ some '\n' := by
  fun_induction Token.skipGap gap s offset newline with
  | case5 =>
    rename_i hterminator _
    obtain rfl := Option.some.inj h
    intro hhead
    rw [List.head?_cons, Option.some.injEq] at hhead
    subst hhead
    exact hterminator (by decide)
  | case11 =>
    obtain rfl := Option.some.inj h
    simp
  | case10 => cases h
  | _ => simp_all

/-- A token is the same, and it ends side by side. -/
lemma read_sideBySide (hstart : startsKept pieces) (h : Harmless markup above pieces)
    (hhead : (whole pieces).head? ≠ some '\n') (offset offset' : Nat) :
    (Token.read (whole pieces, offset)).1 = (Token.read (kept pieces, offset')).1 ∧
      Reached pieces offset offset' (Token.read (whole pieces, offset)).2 (Token.read (kept pieces, offset')).2 := by
  obtain ⟨line, ahead, hline⟩ := exists_firstLine hstart h
  cases line with
  | nil =>
    obtain rfl : pieces = ahead := hline.eq
    rcases hline.eq_nil_or with rfl | ⟨more, rfl⟩
    · exact ⟨rfl, .here trivial⟩
    · exact absurd rfl hhead
  | cons c line =>
    by_cases hquote : c = '"' ∨ c = '\''
    · obtain ⟨pieces, rfl, hbehind⟩ := hline.exists_cons
      have hsize : c.utf8Size = 1 := by rcases hquote with rfl | rfl <;> rfl
      have hread : ∀ s offset, Token.read (c :: s, offset) = Token.orInvalid (c :: s, offset)
          ((skipString c .text s (offset + 1)).map fun behind => (.string, behind)) := by
        rcases hquote with rfl | rfl <;> exact fun s offset => rfl
      have hstring := skipString_sideBySide hquote .text hbehind.startsKept h.of_cons (offset + 1) (offset' + 1)
      rw [whole, kept, hread, hread]
      generalize skipString c .text (whole pieces) (offset + 1) = found at hstring ⊢
      generalize skipString c .text (kept pieces) (offset' + 1) = found' at hstring ⊢
      cases hstring with
      | none => exact ⟨rfl, .char rfl (.here hbehind.startsKept)⟩
      | some hplace => exact ⟨rfl, .char hsize hplace⟩
    · have hread := Token.onLine_read (not_or.mp hquote) hline.unbroken hline.ends hline.ends' offset offset'
      rw [hline.whole_eq, hline.kept_eq]
      exact ⟨hread.1, hline.reached hread.2⟩

/-! ## Texts of templates and of markup -/

lemma skipTemplateText_cons {c : Char} (hescape : c = '\\' → rest = []) (hhole : c = '$' → rest.head? ≠ some '\x7b')
    (hcloses : c ≠ '\x60') (offset : Nat) :
    skipTemplateText (c :: rest) offset = skipTemplateText rest (offset + c.utf8Size) := by
  rw [skipTemplateText]
  · rintro d more rfl rfl
    cases hescape rfl
  · rintro more rfl rfl
    exact hhole rfl rfl
  · exact fun hc => hcloses hc

/-- A line that does not close a template is skipped in it. -/
lemma skipTemplateText_line {front : List Char} (hcloses : '\x60' ∉ front ++ ['\n'] ∧ '\\' ∉ front ++ ['\n'] ∧
      ¬ ['$', '\x7b'] <:+: front ++ ['\n']) (rest : List Char) (offset : Nat) :
    skipTemplateText (front ++ '\n' :: rest) offset = skipTemplateText rest (offset + byteSize front + 1) := by
  induction front generalizing offset with
  | nil => exact skipTemplateText_cons (by simp) (by simp) (by decide) offset
  | cons c front ih =>
    obtain ⟨hbacktick, hescape, hhole⟩ := hcloses
    obtain ⟨hc, hbacktick⟩ := List.ne_and_not_mem_of_not_mem_cons hbacktick
    obtain ⟨hc', hescape⟩ := List.ne_and_not_mem_of_not_mem_cons hescape
    have hopen : c = '$' → (front ++ '\n' :: rest).head? ≠ some '\x7b' := by
      rintro rfl hhead
      cases front with
      | nil => simp at hhead
      | cons d front =>
        obtain rfl : d = '\x7b' := by simpa using hhead
        exact hhole ⟨[], front ++ ['\n'], rfl⟩
    rw [List.cons_append, skipTemplateText_cons (fun heq => absurd heq.symm hc') hopen (Ne.symm hc),
      ih ⟨hbacktick, hescape, fun hwithin => hhole (hwithin.trans (List.suffix_cons c _).isInfix)⟩, Text.byteSize_cons]
    congr 1
    omega

/-- The text of a template comes side by side to the next hole or to its end. -/
lemma skipTemplateText_sideBySide (h : Harmless markup above pieces) (habove : above.backtick = true)
    (offset offset' : Nat) :
    Option.Rel (fun found found' => found.1 = found'.1 ∧ Reached pieces offset offset' found.2 found'.2)
      (skipTemplateText (whole pieces) offset) (skipTemplateText (kept pieces) offset') := by
  have hmove : ∀ {c : Char} {pieces : List Piece} {size offset offset' : Nat}
      {found found' : Option (Bool × Place)}, c.utf8Size = size →
      Option.Rel (fun found found' => found.1 = found'.1 ∧
        Reached pieces (offset + size) (offset' + size) found.2 found'.2) found found' →
      Option.Rel (fun found found' => found.1 = found'.1 ∧
        Reached (.char c :: pieces) offset offset' found.2 found'.2) found found' := by
    intro c pieces size offset offset' found found' hsize hfound
    cases hfound with
    | none => exact .none
    | some hfound => exact .some ⟨hfound.1, hfound.2.char hsize⟩
  -- An escape takes two characters at once.
  obtain ⟨bound, hbound⟩ : ∃ bound, pieces.length ≤ bound := ⟨_, Nat.le_refl _⟩
  induction bound generalizing above pieces offset offset' with
  | zero =>
    obtain rfl : pieces = [] := List.length_eq_zero_iff.mp (Nat.le_zero.mp hbound)
    exact .none
  | succ bound ih =>
    cases pieces with
    | nil => exact .none
    | cons piece pieces =>
      have hrest := h.of_cons
      replace hbound := Nat.le_of_succ_le_succ hbound
      cases piece with
      | line chars =>
        obtain ⟨front, rfl, -⟩ := h.1.isComment.exists_eq_append
        have hsize : byteSize (front ++ ['\n']) = byteSize front + 1 := Text.byteSize_append _ _
        have hfound := ih hrest habove (offset + byteSize (front ++ ['\n'])) offset' hbound
        have hskip := skipTemplateText_line (h.1.backtick habove) (whole pieces) offset
        rw [whole, kept, List.append_assoc, List.cons_append, List.nil_append, hskip, Nat.add_assoc, ← hsize]
        revert hfound
        generalize skipTemplateText (whole pieces) _ = found
        generalize skipTemplateText (kept pieces) offset' = found'
        intro hfound
        cases hfound with
        | none => exact .none
        | some hfound => exact .some ⟨hfound.1, hfound.2.line⟩
      | char c =>
        have hnext := h.1
        rw [whole, kept]
        by_cases hcloses : c = '\x60'
        · subst hcloses
          exact .some ⟨rfl, .char rfl (.here (hnext (by decide)))⟩
        by_cases hescape : c = '\\' ∧ pieces ≠ []
        · obtain ⟨rfl, hne⟩ := hescape
          cases pieces with
          | nil => exact absurd rfl hne
          | cons piece pieces =>
            cases piece with
            | line chars => exact (hnext (by decide)).elim
            | char d =>
              rw [whole, kept, skipTemplateText, skipTemplateText]
              exact hmove rfl (hmove rfl (ih hrest.of_cons habove _ _ (Nat.le_of_succ_le hbound)))
        by_cases hhole : c = '$' ∧ ∃ more, pieces = .char '\x7b' :: more
        · obtain ⟨rfl, more, rfl⟩ := hhole
          exact .some ⟨rfl, .char rfl (.char rfl (.here (hrest.1 (by decide))))⟩
        · have hlast : c = '\\' → pieces = [] := fun hc => not_not.mp fun hne => hescape ⟨hc, hne⟩
          have hopen : c = '$' → (whole pieces).head? ≠ some '\x7b' := by
            rintro rfl hhead
            cases pieces with
            | nil => cases hhead
            | cons piece pieces =>
              cases piece with
              | line chars => exact hnext (by decide)
              | char d => exact hhole ⟨rfl, pieces, by rw [Option.some.inj hhead]⟩
          have hopen' : c = '$' → (kept pieces).head? ≠ some '\x7b' := by
            intro hc
            rw [← head?_whole (hnext (by rw [hc]; decide))]
            exact hopen hc
          rw [skipTemplateText_cons (fun hc => by rw [hlast hc]; rfl) hopen hcloses,
            skipTemplateText_cons (fun hc => by rw [hlast hc]; rfl) hopen' hcloses]
          exact hmove rfl (ih hrest habove _ _ hbound)

/-- The text in front of the next tag or brace ends side by side. -/
lemma skipMarkupText_sideBySide (h : Harmless markup above pieces) (habove : above.angle = true)
    (offset offset' : Nat) : BothReach pieces offset offset' (skipMarkupText (whole pieces) offset)
      (skipMarkupText (kept pieces) offset') := by
  induction pieces generalizing above offset offset' with
  | nil => exact .none
  | cons piece pieces ih =>
    cases piece with
    | line chars =>
      have hskip : ∀ {chars : List Char} {rest} offset, (∀ c ∈ ['<', '>', '\x7b', '\x7d'], c ∉ chars) →
          skipMarkupText (chars ++ rest) offset = skipMarkupText rest (offset + byteSize chars) := by
        intro chars rest offset hchars
        induction chars generalizing offset with
        | nil => rfl
        | cons c chars ihchars =>
          have hc : ∀ d ∈ ['<', '>', '\x7b', '\x7d'], c ≠ d := by
            rintro d hd rfl
            exact hchars c hd List.mem_cons_self
          have hopens : ¬ (c == '<' || c == '\x7b') = true := by simp [hc]
          have hbroken : ¬ (c == '>' || c == '\x7d') = true := by simp [hc]
          rw [List.cons_append, skipMarkupText, if_neg hopens, if_neg hbroken,
            ihchars _ fun d hd hmem => hchars d hd (List.mem_cons_of_mem _ hmem), Text.byteSize_cons, Nat.add_assoc]
      rw [whole, kept, hskip offset (h.1.angle habove)]
      exact .line (ih h.2 habove _ _)
    | char c =>
      rw [whole, kept, skipMarkupText, skipMarkupText]
      split_ifs
      · exact .some (.here trivial)
      · exact .none
      · exact .char rfl (ih h.of_cons habove _ _)

/-- The string of an attribute ends side by side, if its quote stays. -/
lemma skipAttributeString_sideBySide (hquote : quote.utf8Size = 1 ∧ quote ≠ '\n') (h : Harmless markup above pieces)
    (hcloses : closesKept quote pieces) (offset offset' : Nat) :
    BothReach pieces offset offset' (skipAttributeString quote (whole pieces) offset)
      (skipAttributeString quote (kept pieces) offset') := by
  induction pieces generalizing above offset offset' with
  | nil => exact .none
  | cons piece pieces ih =>
    cases piece with
    | line chars =>
      have hskip : ∀ {chars : List Char} {rest} offset, quote ∉ chars →
          skipAttributeString quote (chars ++ rest) offset = skipAttributeString quote rest (offset + byteSize chars) := by
        intro chars rest offset hchars
        induction chars generalizing offset with
        | nil => rfl
        | cons c chars ihchars =>
          obtain ⟨hc, hchars⟩ := List.ne_and_not_mem_of_not_mem_cons hchars
          rw [List.cons_append, skipAttributeString, if_neg (by simpa using Ne.symm hc), ihchars _ hchars, Text.byteSize_cons,
            Nat.add_assoc]
      rw [whole, kept, hskip offset hcloses.1]
      exact .line (ih h.2 hcloses.2 _ _)
    | char c =>
      rw [whole, kept, skipAttributeString, skipAttributeString]
      split_ifs with hends
      · obtain rfl : c = quote := beq_iff_eq.mp hends
        exact .some (.char hquote.1 (.here (h.1 hquote.2)))
      · exact .char rfl (ih h.of_cons (hcloses.resolve_left (by simpa using hends)) _ _)

end

end SpaMigration.Syntax
