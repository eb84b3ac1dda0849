import Mathlib.Data.List.Infix
import SpaMigration.Proofs.CommentLines
import SpaMigration.Proofs.ItemReading

/-!
# A text and the text without some of its lines, read side by side

A text is given as characters that stay and lines of comments that go. Every reader that is used on the text comes
to the same result on the characters alone, at the corresponding place, as long as no line that goes can close what
was opened above it: a block comment, a template, or the text of markup.
-/
namespace SpaMigration.Syntax

open Text (byteSize IsCommentLine isSpacing isLineTerminator)
open Token (Place skipGap isInlineBlank)

/-- A piece of a text: a character that stays, or a line that goes. -/
inductive Piece where
  | char (c : Char)
  | line (chars : List Char)

/-- The text, lines that go included. -/
def whole : List Piece → List Char
  | [] => []
  | .char c :: pieces => c :: whole pieces
  | .line chars :: pieces => chars ++ whole pieces

/-- The characters that stay. -/
def kept : List Piece → List Char
  | [] => []
  | .char c :: pieces => c :: kept pieces
  | .line _ :: pieces => kept pieces

@[simp] lemma whole_append (pieces others : List Piece) : whole (pieces ++ others) = whole pieces ++ whole others := by
  induction pieces with
  | nil => rfl
  | cons piece pieces ih => cases piece <;> simp [whole, ih]

@[simp] lemma kept_append (pieces others : List Piece) : kept (pieces ++ others) = kept pieces ++ kept others := by
  induction pieces with
  | nil => rfl
  | cons piece pieces ih => cases piece <;> simp [kept, ih]

/-- The pieces do not begin with a line that goes. -/
def startsKept : List Piece → Prop
  | .line _ :: _ => False
  | _ => True

instance : ∀ pieces, Decidable (startsKept pieces)
  | [] => .isTrue trivial
  | .char _ :: _ => .isTrue trivial
  | .line _ :: _ => .isFalse id

/-- What may have been opened above a place: a template, markup, a block comment. -/
structure Above where
  backtick : Bool := false
  angle : Bool := false
  block : Bool := false

/-- A block comment is opened by a character and what follows it. -/
def opensBlock : Char → List Piece → Bool
  | '/', .char '*' :: _ => true
  | _, _ => false

/-- What may have been opened above the place behind a character. Angle brackets count where there is markup. -/
def Above.behind (above : Above) (markup : Bool) (c : Char) (pieces : List Piece) : Above where
  backtick := above.backtick || c == '\x60'
  angle := above.angle || markup && c == '<'
  block := above.block || opensBlock c pieces

/-- A line of a comment that closes nothing that was opened above it. It holds no other line terminator than its
line feed and possibly one in front of that. -/
structure IsHarmlessLine (above : Above) (line : List Char) : Prop where
  isComment : IsCommentLine line
  unbroken : ∀ c ∈ line.dropLast.dropLast, isLineTerminator c = false
  block : above.block = true → ¬ ['*', '/'] <:+: line
  backtick : above.backtick = true → '\x60' ∉ line ∧ '\\' ∉ line ∧ ¬ ['$', '\x7b'] <:+: line
  angle : above.angle = true → ∀ c ∈ ['<', '>', '\x7b', '\x7d'], c ∉ line

-- Both quantifiers run over the characters of a list, not over all characters.
instance (above : Above) (line : List Char) : Decidable (IsHarmlessLine above line) :=
  have := List.decidableBAll (fun c => isLineTerminator c = false) line.dropLast.dropLast
  have := List.decidableBAll (· ∉ line) ['<', '>', '\x7b', '\x7d']
  decidable_of_iff (IsCommentLine line ∧ (∀ c ∈ line.dropLast.dropLast, isLineTerminator c = false) ∧
      (above.block = true → ¬ ['*', '/'] <:+: line) ∧
      (above.backtick = true → '\x60' ∉ line ∧ '\\' ∉ line ∧ ¬ ['$', '\x7b'] <:+: line) ∧
      (above.angle = true → ∀ c ∈ ['<', '>', '\x7b', '\x7d'], c ∉ line))
    ⟨fun ⟨hcomment, hunbroken, hblock, hbacktick, hangle⟩ => ⟨hcomment, hunbroken, hblock, hbacktick, hangle⟩,
      fun ⟨hcomment, hunbroken, hblock, hbacktick, hangle⟩ => ⟨hcomment, hunbroken, hblock, hbacktick, hangle⟩⟩

/-- The line feed behind a backslash, where it does not end a string, and a line that goes come next. -/
def breaksString : List Piece → Prop
  | .char '\n' :: pieces => ¬ startsKept pieces
  | .char '\r' :: .char '\n' :: pieces => ¬ startsKept pieces
  | _ => False

instance (pieces : List Piece) : Decidable (breaksString pieces) := by
  unfold breaksString
  split <;> infer_instance

/-- The next of these quotes stays. -/
def closesKept (quote : Char) : List Piece → Prop
  | [] => True
  | .char c :: pieces => c = quote ∨ closesKept quote pieces
  | .line chars :: pieces => quote ∉ chars ∧ closesKept quote pieces

instance (quote : Char) : ∀ pieces, Decidable (closesKept quote pieces)
  | [] => .isTrue trivial
  | .char c :: pieces =>
    have := instDecidableClosesKept quote pieces
    inferInstanceAs (Decidable (c = quote ∨ closesKept quote pieces))
  | .line chars :: pieces =>
    have := instDecidableClosesKept quote pieces
    inferInstanceAs (Decidable (quote ∉ chars ∧ closesKept quote pieces))

/-- A string that comes next, behind a gap, ends with a quote that stays. It has no escapes, as the value of an
attribute has none. -/
def valueClosesKept (pieces : List Piece) : Prop :=
  ∀ ahead ∈ pieces.tails, match ahead with
    | .char c :: behind => (c = '"' ∨ c = '\'') → afterGap? (whole pieces) = some (c :: whole behind) →
      closesKept c behind
    | _ => True

instance (pieces : List Piece) : Decidable (valueClosesKept pieces) := by
  unfold valueClosesKept
  refine @List.decidableBAll _ _ (fun ahead => ?_) _
  split <;> infer_instance

/-- The lines that go are harmless, whatever may have been opened: they follow a line feed, which no string runs
across, close nothing that was opened above them, and do not close the value of an attribute. -/
def Harmless (markup : Bool) : Above → List Piece → Prop
  | _, [] => True
  | above, .char c :: pieces =>
    (c ≠ '\n' → startsKept pieces) ∧ (c = '\\' → ¬ breaksString pieces) ∧
      (above.angle = true → c = '=' → valueClosesKept pieces) ∧
      Harmless markup (above.behind markup c pieces) pieces
  | above, .line chars :: pieces => IsHarmlessLine above chars ∧ Harmless markup above pieces

instance (markup : Bool) : ∀ above pieces, Decidable (Harmless markup above pieces)
  | _, [] => .isTrue trivial
  | above, .char c :: pieces =>
    have := instDecidableHarmless markup (above.behind markup c pieces) pieces
    inferInstanceAs (Decidable ((c ≠ '\n' → startsKept pieces) ∧ (c = '\\' → ¬ breaksString pieces) ∧
      (above.angle = true → c = '=' → valueClosesKept pieces) ∧ Harmless markup (above.behind markup c pieces) pieces))
  | above, .line chars :: pieces =>
    have := instDecidableHarmless markup above pieces
    inferInstanceAs (Decidable (IsHarmlessLine above chars ∧ Harmless markup above pieces))

namespace Above

/-- Whatever may have been opened above one place may have been opened above the other. -/
instance : LE Above where
  le above other := (above.backtick = true → other.backtick = true) ∧ (above.angle = true → other.angle = true) ∧
    (above.block = true → other.block = true)

lemma le_refl (above : Above) : above ≤ above := ⟨id, id, id⟩

variable {above other : Above} {markup : Bool} {c : Char} {pieces : List Piece}

lemma le_behind : above ≤ above.behind markup c pieces := by
  refine ⟨fun h => ?_, fun h => ?_, fun h => ?_⟩ <;> simp [behind, h]

lemma behind_le_behind (h : above ≤ other) : above.behind markup c pieces ≤ other.behind markup c pieces := by
  obtain ⟨hbacktick, hangle, hblock⟩ := h
  simp only [behind]
  refine ⟨fun h => ?_, fun h => ?_, fun h => ?_⟩
  all_goals
    rcases Bool.or_eq_true_iff.mp h with h | h
    · simp [*]
    · simp [h]

end Above

section

variable {markup : Bool} {above other : Above} {pieces : List Piece} {piece : Piece} {c : Char}

lemma IsHarmlessLine.anti {line : List Char} (h : IsHarmlessLine other line) (hle : above ≤ other) :
    IsHarmlessLine above line where
  isComment := h.isComment
  unbroken := h.unbroken
  block hblock := h.block (hle.2.2 hblock)
  backtick hbacktick := h.backtick (hle.1 hbacktick)
  angle hangle := h.angle (hle.2.1 hangle)

/-- The less may have been opened above, the more is harmless. -/
lemma Harmless.anti (h : Harmless markup other pieces) (hle : above ≤ other) : Harmless markup above pieces := by
  induction pieces generalizing above other with
  | nil => trivial
  | cons piece pieces ih =>
    cases piece with
    | char c =>
      obtain ⟨hstart, hstring, hvalue, hrest⟩ := h
      exact ⟨hstart, hstring, fun hangle => hvalue (hle.2.1 hangle), ih hrest (Above.behind_le_behind hle)⟩
    | line chars => exact ⟨h.1.anti hle, ih h.2 hle⟩

lemma Harmless.of_cons (h : Harmless markup above (piece :: pieces)) : Harmless markup above pieces := by
  cases piece with
  | char c => exact h.2.2.2.anti Above.le_behind
  | line chars => exact h.2

lemma Harmless.of_append {passed : List Piece} (h : Harmless markup above (passed ++ pieces)) :
    Harmless markup above pieces := by
  induction passed with
  | nil => exact h
  | cons piece passed ih => exact ih h.of_cons

/-- Where no line goes next, the text with the lines that go begins with the same character as the one without. -/
lemma head?_whole (h : startsKept pieces) : (whole pieces).head? = (kept pieces).head? := by
  cases pieces with
  | nil => rfl
  | cons piece pieces =>
    cases piece with
    | char c => rfl
    | line chars => exact absurd h id

end

/-! ## Gaps between tokens -/

section

variable {rest : List Char} {offset : Nat} {newline : Bool}

/-- What a gap does with a character that does not begin a comment. -/
lemma skipGap_code_cons {c : Char} (h : c = '/' → ∀ d ∈ rest.head?, d ≠ '/' ∧ d ≠ '*') :
    skipGap .code (c :: rest) offset newline =
      if isLineTerminator c then skipGap .code rest (offset + c.utf8Size) true
      else if isInlineBlank c then skipGap .code rest (offset + c.utf8Size) newline
      else some ((c :: rest, offset), newline) := by
  rw [skipGap]
  · rintro rest rfl rfl
    exact (h rfl '/' rfl).1 rfl
  · rintro rest rfl rfl
    exact (h rfl '*' rfl).2 rfl

lemma skipGap_line_cons {c : Char} : skipGap .line (c :: rest) offset newline =
    if isLineTerminator c then skipGap .code rest (offset + c.utf8Size) true
    else skipGap .line rest (offset + c.utf8Size) newline := by
  rw [skipGap]

lemma skipGap_block_cons {c : Char} (h : c = '*' → rest.head? ≠ some '/') :
    skipGap .block (c :: rest) offset newline =
      skipGap .block rest (offset + c.utf8Size) (newline || isLineTerminator c) := by
  rw [skipGap]
  rintro rest rfl rfl
  exact h rfl rfl

lemma skipGap_newline : skipGap .code ('\n' :: rest) offset newline = skipGap .code rest (offset + 1) true :=
  skipGap_code_cons (by simp)

lemma skipGap_line_unbroken {body : List Char} (h : ∀ c ∈ body.dropLast, isLineTerminator c = false) :
    skipGap .line (body ++ '\n' :: rest) offset newline = skipGap .code rest (offset + byteSize body + 1) true := by
  induction body generalizing offset with
  | nil => exact skipGap_line_cons
  | cons c body ih =>
    rw [List.cons_append, skipGap_line_cons, Text.byteSize_cons, ← Nat.add_assoc]
    cases body with
    | nil =>
      have hnewline : isLineTerminator '\n' = true := by decide
      rw [List.nil_append, skipGap_newline, skipGap_line_cons, if_pos hnewline]
      exact ite_self _
    | cons d body =>
      rw [List.dropLast_cons_cons] at h
      obtain ⟨hc, hbody⟩ := List.forall_mem_cons.mp h
      rw [hc, if_neg Bool.false_ne_true, ih hbody]

lemma skipGap_spacing {spacing : List Char} (h : ∀ c ∈ spacing, isSpacing c) :
    skipGap .code (spacing ++ rest) offset newline = skipGap .code rest (offset + byteSize spacing) newline := by
  induction spacing generalizing offset with
  | nil => rfl
  | cons c spacing ih =>
    obtain ⟨hc, hspacing⟩ := List.forall_mem_cons.mp h
    have hblank : isLineTerminator c = false ∧ isInlineBlank c = true ∧ c ≠ '/' := by
      rw [isSpacing, Bool.or_eq_true, beq_iff_eq, beq_iff_eq] at hc
      rcases hc with rfl | rfl <;> decide
    rw [List.cons_append, skipGap_code_cons fun heq => absurd heq hblank.2.2, hblank.1, hblank.2.1,
      if_neg Bool.false_ne_true, if_pos rfl, ih hspacing, Text.byteSize_cons, Nat.add_assoc]

/-- A line of a comment is skipped by code. -/
lemma skipGap_commentLine {above : Above} {line : List Char} (h : IsHarmlessLine above line) :
    skipGap .code (line ++ rest) offset newline = skipGap .code rest (offset + byteSize line) true := by
  obtain ⟨spacing, body, rfl, hspacing, -⟩ := h.isComment
  have hbody : ∀ c ∈ body.dropLast, isLineTerminator c = false := by
    intro c hc
    have hline : (spacing ++ '/' :: '/' :: (body ++ ['\n'])).dropLast = spacing ++ '/' :: '/' :: body := by
      rw [← List.cons_append, ← List.cons_append, ← List.append_assoc, List.dropLast_concat]
    refine h.unbroken c ?_
    rw [hline]
    cases body with
    | nil => simp at hc
    | cons d body =>
      rw [List.dropLast_append_of_ne_nil (List.cons_ne_nil _ _), List.dropLast_cons_cons, List.dropLast_cons_cons]
      exact List.mem_append_right _ (List.mem_cons_of_mem _ (List.mem_cons_of_mem _ hc))
  have hslashes : ∀ rest, skipGap .code ('/' :: '/' :: rest) (offset + byteSize spacing) newline =
      skipGap .line rest (offset + byteSize spacing + 2) newline := fun rest => by rw [skipGap]
  have hend : spacing ++ '/' :: '/' :: (body ++ ['\n']) ++ rest = spacing ++ '/' :: '/' :: (body ++ '\n' :: rest) := by
    simp
  have hsize : byteSize (spacing ++ '/' :: '/' :: (body ++ ['\n'])) = byteSize spacing + 2 + byteSize body + 1 := by
    have hchars : '/'.utf8Size = 1 ∧ '\n'.utf8Size = 1 := ⟨rfl, rfl⟩
    simp only [Text.byteSize_append, Text.byteSize_cons, Text.byteSize_nil, hchars]
    omega
  rw [hend, skipGap_spacing hspacing, hslashes, skipGap_line_unbroken hbody, hsize]
  congr 1
  omega

/-- A line that does not close a block comment is skipped in it. -/
lemma skipGap_block_line {front : List Char} (h : ¬ ['*', '/'] <:+: front ++ ['\n']) :
    skipGap .block (front ++ '\n' :: rest) offset newline =
      skipGap .block rest (offset + byteSize front + 1) true := by
  induction front generalizing offset newline with
  | nil =>
    rw [List.nil_append, skipGap_block_cons (by simp)]
    simp [isLineTerminator, Char.utf8Size]
  | cons c front ih =>
    have hfront : ¬ ['*', '/'] <:+: front ++ ['\n'] := fun hwithin => h (hwithin.trans (List.suffix_cons c _).isInfix)
    have hopen : c = '*' → (front ++ '\n' :: rest).head? ≠ some '/' := by
      rintro rfl hhead
      cases front with
      | nil => simp at hhead
      | cons d front =>
        obtain rfl : d = '/' := by simpa using hhead
        exact h ⟨[], front ++ ['\n'], rfl⟩
    rw [List.cons_append, skipGap_block_cons hopen, ih hfront, Text.byteSize_cons]
    congr 1
    omega

end

/-- Two places that are reached side by side from the start of some pieces: the same pieces lie ahead, of which the
first one stays. -/
def Reached (pieces : List Piece) (offset offset' : Nat) (place place' : Place) : Prop :=
  ∃ passed ahead, pieces = passed ++ ahead ∧ startsKept ahead ∧
    place = (whole ahead, offset + byteSize (whole passed)) ∧ place' = (kept ahead, offset' + byteSize (kept passed))

section

variable {pieces : List Piece} {offset offset' : Nat} {place place' : Place}

lemma Reached.here (h : startsKept pieces) : Reached pieces offset offset' (whole pieces, offset) (kept pieces, offset') :=
  ⟨[], pieces, rfl, h, rfl, rfl⟩

lemma Reached.char {c : Char} {size : Nat} (hsize : c.utf8Size = size)
    (h : Reached pieces (offset + size) (offset' + size) place place') :
    Reached (.char c :: pieces) offset offset' place place' := by
  obtain ⟨passed, ahead, rfl, hstart, rfl, rfl⟩ := h
  refine ⟨.char c :: passed, ahead, rfl, hstart, ?_, ?_⟩
  · simp [whole, hsize, Nat.add_assoc]
  · simp [kept, hsize, Nat.add_assoc]

lemma Reached.line {chars : List Char} (h : Reached pieces (offset + byteSize chars) offset' place place') :
    Reached (.line chars :: pieces) offset offset' place place' := by
  obtain ⟨passed, ahead, rfl, hstart, rfl, rfl⟩ := h
  refine ⟨.line chars :: passed, ahead, rfl, hstart, ?_, ?_⟩
  · simp [whole, Nat.add_assoc]
  · simp [kept]

/-- What two searches for a place find: nothing, or places that are reached side by side. -/
abbrev BothReach (pieces : List Piece) (offset offset' : Nat) : Option Place → Option Place → Prop :=
  Option.Rel (Reached pieces offset offset')

end

/-- What two searches behind a gap find: nothing, or places that are reached side by side, and whether a line ends
on the way. -/
abbrev BothSkip (pieces : List Piece) (offset offset' : Nat) : Option (Place × Bool) → Option (Place × Bool) → Prop :=
  Option.Rel fun found found' => Reached pieces offset offset' found.1 found'.1 ∧ found.2 = found'.2

section

variable {pieces : List Piece} {offset offset' : Nat} {found found' : Option (Place × Bool)}

lemma BothSkip.char {c : Char} {size : Nat} (hsize : c.utf8Size = size)
    (h : BothSkip pieces (offset + size) (offset' + size) found found') :
    BothSkip (.char c :: pieces) offset offset' found found' := by
  cases h with
  | none => exact .none
  | some h => exact .some ⟨h.1.char hsize, h.2⟩

lemma BothSkip.line {chars : List Char} (h : BothSkip pieces (offset + byteSize chars) offset' found found') :
    BothSkip (.line chars :: pieces) offset offset' found found' := by
  cases h with
  | none => exact .none
  | some h => exact .some ⟨h.1.line, h.2⟩

end

/-- A gap is skipped side by side. Where a line that goes comes first, a line has ended before it. -/
lemma skipGap_sideBySide {markup : Bool} (gap : Token.Gap) {above : Above} {pieces : List Piece}
    (h : Harmless markup above pieces) (hblock : gap = .block → above.block = true) (offset offset' : Nat)
    {newline : Bool} (hstart : startsKept pieces ∨ newline = true ∧ gap ≠ .line) :
    BothSkip pieces offset offset' (skipGap gap (whole pieces) offset newline)
      (skipGap gap (kept pieces) offset' newline) := by
  -- Comments are opened and closed by two characters, so two pieces may be passed at once.
  obtain ⟨bound, hbound⟩ : ∃ bound, pieces.length ≤ bound := ⟨_, Nat.le_refl _⟩
  have hcode : ∀ above : Above, Token.Gap.code = .block → above.block = true := by simp
  have hline : ∀ above : Above, Token.Gap.line = .block → above.block = true := by simp
  have hcodeLine : Token.Gap.code ≠ .line := by simp
  have hblockLine : Token.Gap.block ≠ .line := by simp
  induction bound generalizing gap above pieces offset offset' newline with
  | zero =>
    obtain rfl : pieces = [] := List.length_eq_zero_iff.mp (Nat.le_zero.mp hbound)
    cases gap with
    | block => exact .none
    | _ => exact .some ⟨.here trivial, rfl⟩
  | succ bound ih =>
    cases pieces with
    | nil =>
      cases gap with
      | block => exact .none
      | _ => exact .some ⟨.here trivial, rfl⟩
    | cons piece pieces =>
      have hrest := h.of_cons
      replace hbound := Nat.le_of_succ_le_succ hbound
      cases piece with
      | line chars =>
        obtain ⟨rfl, hgap⟩ := hstart.resolve_left id
        refine .line ?_
        cases gap with
        | code =>
          rw [whole, kept, skipGap_commentLine h.1]
          exact ih .code hrest (hcode _) _ _ (.inr ⟨rfl, hcodeLine⟩) hbound
        | line => exact absurd rfl hgap
        | block =>
          obtain ⟨front, rfl, -⟩ := h.1.isComment.exists_eq_append
          have hsize : byteSize (front ++ ['\n']) = byteSize front + 1 := Text.byteSize_append _ _
          rw [whole, kept, List.append_assoc, hsize, ← Nat.add_assoc]
          refine Eq.subst (skipGap_block_line (h.1.block (hblock rfl))).symm
            (motive := fun found => BothSkip _ _ _ found _) ?_
          exact ih .block hrest hblock _ _ (.inr ⟨rfl, hblockLine⟩) hbound
      | char c =>
        obtain ⟨hnext, -, -, hbehind⟩ := h
        cases gap with
        | code =>
          by_cases hopens : c = '/' ∧ ∃ d rest, pieces = .char d :: rest ∧ (d = '/' ∨ d = '*')
          · obtain ⟨rfl, d, rest, rfl, hd⟩ := hopens
            have hlength : rest.length ≤ bound := Nat.le_of_succ_le hbound
            rcases hd with rfl | rfl
            · rw [whole, kept, whole, kept, skipGap, skipGap]
              exact .char rfl (.char rfl (ih .line hrest.of_cons (hline _) _ _ (.inl (hrest.1 (by decide))) hlength))
            · rw [whole, kept, whole, kept, skipGap, skipGap]
              have hopened : (above.behind markup '/' (.char '*' :: rest)).block = true := Bool.or_true _
              exact .char rfl (.char rfl (ih .block hbehind.of_cons (fun _ => hopened) _ _
                (.inl (hrest.1 (by decide))) hlength))
          · have hslash : c = '/' → ∀ d ∈ (whole pieces).head?, d ≠ '/' ∧ d ≠ '*' := by
              rintro rfl d hd
              cases pieces with
              | nil => cases hd
              | cons piece pieces =>
                cases piece with
                | line chars => exact (hnext (by decide)).elim
                | char e =>
                  obtain rfl : e = d := Option.some.inj hd
                  exact not_or.mp fun hor => hopens ⟨rfl, e, pieces, rfl, hor⟩
            have hslash' : c = '/' → ∀ d ∈ (kept pieces).head?, d ≠ '/' ∧ d ≠ '*' := by
              intro hc
              rw [← head?_whole (hnext (by rw [hc]; decide))]
              exact hslash hc
            rw [whole, kept, skipGap_code_cons hslash, skipGap_code_cons hslash']
            by_cases hterminator : isLineTerminator c = true
            · rw [if_pos hterminator, if_pos hterminator]
              exact .char rfl (ih .code hrest (hcode _) _ _ (.inr ⟨rfl, hcodeLine⟩) hbound)
            · rw [if_neg hterminator, if_neg hterminator]
              have hc : c ≠ '\n' := by
                rintro rfl
                exact hterminator (by decide)
              by_cases hblank : isInlineBlank c = true
              · rw [if_pos hblank, if_pos hblank]
                exact .char rfl (ih .code hrest (hcode _) _ _ (.inl (hnext hc)) hbound)
              · rw [if_neg hblank, if_neg hblank]
                exact .some ⟨.here trivial, rfl⟩
        | line =>
          rw [whole, kept, skipGap_line_cons, skipGap_line_cons]
          by_cases hterminator : isLineTerminator c = true
          · rw [if_pos hterminator, if_pos hterminator]
            exact .char rfl (ih .code hrest (hcode _) _ _ (.inr ⟨rfl, hcodeLine⟩) hbound)
          · rw [if_neg hterminator, if_neg hterminator]
            have hc : c ≠ '\n' := by
              rintro rfl
              exact hterminator (by decide)
            exact .char rfl (ih .line hrest (hline _) _ _ (.inl (hnext hc)) hbound)
        | block =>
          by_cases hcloses : c = '*' ∧ ∃ rest, pieces = .char '/' :: rest
          · obtain ⟨rfl, rest, rfl⟩ := hcloses
            rw [whole, kept, whole, kept, skipGap, skipGap]
            exact .char rfl (.char rfl (ih .code hrest.of_cons (hcode _) _ _ (.inl (hrest.1 (by decide)))
              (Nat.le_of_succ_le hbound)))
          · have hstar : c = '*' → (whole pieces).head? ≠ some '/' := by
              rintro rfl hhead
              cases pieces with
              | nil => cases hhead
              | cons piece pieces =>
                cases piece with
                | line chars => exact hnext (by decide)
                | char d =>
                  obtain rfl : d = '/' := Option.some.inj hhead
                  exact hcloses ⟨rfl, pieces, rfl⟩
            have hstar' : c = '*' → (kept pieces).head? ≠ some '/' := by
              intro hc
              rw [← head?_whole (hnext (by rw [hc]; decide))]
              exact hstar hc
            rw [whole, kept, skipGap_block_cons hstar, skipGap_block_cons hstar']
            refine .char rfl (ih .block hrest hblock _ _ ?_ hbound)
            by_cases hc : c = '\n'
            · subst hc
              exact .inr ⟨by simp [isLineTerminator], hblockLine⟩
            · exact .inl (hnext hc)

/-- A gap outside comments is skipped side by side. -/
lemma skipGap_code_sideBySide {markup : Bool} {above : Above} {pieces : List Piece} (h : Harmless markup above pieces)
    (offset offset' : Nat) (newline : Bool) (hstart : startsKept pieces ∨ newline = true) :
    BothSkip pieces offset offset' (skipGap .code (whole pieces) offset newline)
      (skipGap .code (kept pieces) offset' newline) :=
  skipGap_sideBySide .code h nofun offset offset' (hstart.imp_right fun hnewline => ⟨hnewline, nofun⟩)

end SpaMigration.Syntax
