import SpaMigration.Proofs.TypesInLockstep

/-!
# Markup in lockstep

Text between tags and the strings of attributes may run over lines that go. None of those closes what an angle
bracket opened, so elements and fragments are read side by side from their bracket on.
-/
namespace SpaMigration.Syntax

open Text (byteSize)
open TokenReader

set_option synthInstance.maxSize 20000

variable {setting : Setting} {above : Above} {g : Grammar} {ctx : Context} [ctx.Fits setting]
  [hg : g.InLockstep setting]

/-! ## Names -/

instance : Lockstep setting above markupName markupName := by
  unfold markupName
  refine Lockstep.get fun s s' hs => ?_
  have hname := hs.here.dropWhile (p := fun c => c == '-' || Text.isIdentifierPart c) (by decide)
  have hstart := hs.here.head?_eq
  obtain ⟨hname, hbehind⟩ := hname
  dsimp only
  rw [hstart, hname] at *
  refine Lockstep.bindPlain inferInstance fun _ => Lockstep.bindPlain (Lockstep.goTo hbehind) fun _ => inferInstance

instance : Lockstep setting above (elementName g) (elementName g) := by
  unfold elementName
  infer_instance

/-! ## Attributes -/

/-- A value comes next, behind the sign of assignment. If it is a string, its quote stays. -/
structure BeforeValue (setting : Setting) (above : Above) (s s' : ReaderState) (passed ahead : List Piece) : Prop where
  beside : Beside setting above s s'
  pieces : setting.pieces = passed ++ ahead
  starts : startsKept ahead
  harmless : Harmless setting.markup above ahead
  here : s.here = (whole ahead, byteSize (whole passed))
  here' : s'.here = (kept ahead, byteSize (kept passed))
  closes : ∀ c behind, ahead = .char c :: behind → (c = '"' ∨ c = '\'') → closesKept c behind

/-- Behind the sign of assignment in a tag, a value comes next. -/
lemma Beside.beforeValue {s s' : ReaderState} (hs : Beside setting above s s') (habove : above.angle = true)
    (htoken : s.token = .punct .assign) : ∃ passed ahead, BeforeValue setting above s.next s'.next passed ahead := by
  obtain ⟨passed, ahead, hpieces, hharmless, hplace, hplace'⟩ := hs.behind_mark (.inr ⟨rfl, rfl⟩) htoken
  obtain ⟨hstart, -, hvalue, hbehind⟩ := hharmless
  replace hstart := hstart (by decide)
  replace hvalue := hvalue habove rfl
  replace hbehind := hbehind.anti Above.le_behind
  have hgap := skipGap_code_sideBySide hbehind (byteSize (whole (passed ++ [.char '='])))
    (byteSize (kept (passed ++ [.char '=']))) false (.inl hstart)
  have hfound := map_skipGap .code (whole ahead) 0 (byteSize (whole (passed ++ [.char '=']))) false false
  have hnext : ∀ {t : ReaderState}, t.next = .after t.behind := rfl
  rw [List.append_cons] at hpieces
  generalize hskip : Token.skipGap .code (whole ahead) (byteSize (whole (passed ++ [.char '=']))) false = found at hgap hfound
  generalize hskip' : Token.skipGap .code (kept ahead) (byteSize (kept (passed ++ [.char '=']))) false = found' at hgap
  cases hgap with
  | none =>
    refine ⟨passed ++ [.char '='], ahead, hs.next, hpieces, hstart, hbehind, ?_, ?_, ?_⟩
    · simp only [hnext, ReaderState.after, hplace, hskip]
    · simp only [hnext, ReaderState.after, hplace', hskip']
    · rintro c behind rfl hquote
      have hcomment : c ≠ '/' := by rcases hquote with rfl | rfl <;> decide
      rw [whole, skipGap_code_cons fun heq => absurd heq hcomment] at hskip
      rcases hquote with rfl | rfl <;> cases hskip
  | @some found found' hplaces =>
    obtain ⟨between, behind, rfl, hstays, hhere, hhere'⟩ := hplaces.1
    refine ⟨passed ++ [.char '='] ++ between, behind, hs.next, ?_, hstays, hbehind.of_append, ?_, ?_, ?_⟩
    · simp only [hpieces, List.append_assoc]
    · simp only [hnext, ReaderState.after, hplace, hskip, hhere, whole_append _ between, Text.byteSize_append]
    · simp only [hnext, ReaderState.after, hplace', hskip', hhere', kept_append _ between, Text.byteSize_append]
    · rintro c behind rfl hquote
      refine hvalue _ ((List.mem_tails _ _).mpr (List.suffix_append _ _)) hquote ?_
      rw [afterGap?, hfound, Option.map_some, hhere]
      rfl

section

variable (hmarkup : setting.markup = true) (habove : above.angle = true)

include hmarkup in
lemma BeforeValue.bothParse {s s' : ReaderState} {passed ahead : List Piece}
    (h : BeforeValue setting above s s' passed ahead) :
    BothParse setting above ((attributeValue g ctx).run s) ((attributeValue g ctx).run s') := by
  have : Goal.markup.Fits setting := ⟨fun _ => hmarkup⟩
  unfold attributeValue
  refine Lockstep.offsetGet h.beside fun start start' _ => ?_
  rw [h.here, h.here']
  have hharmless := h.harmless
  cases ahead with
  | nil => exact Lockstep.failure
  | cons piece behind =>
    cases piece with
    | line chars => exact h.starts.elim
    | char c =>
      dsimp only [whole, kept]
      by_cases hquote : c = '"' ∨ c = '\''
      · have hsize : c.utf8Size = 1 ∧ c ≠ '\n' := by rcases hquote with rfl | rfl <;> decide
        have hcond : (c == '"' || c == '\'') = true := by simpa using hquote
        rw [if_pos hcond, if_pos hcond]
        have hfound := skipAttributeString_sideBySide hsize hharmless.of_cons (h.closes c behind rfl hquote)
          (byteSize (whole passed) + 1) (byteSize (kept passed) + 1)
        generalize skipAttributeString c (whole behind) _ = found at hfound ⊢
        generalize skipAttributeString c (kept behind) _ = found' at hfound ⊢
        cases hfound with
        | none => exact Lockstep.failure
        | some hreached =>
          have hbehind := (hreached.char hsize.1).abreast h.pieces hharmless
          exact Lockstep.bindPlain (Lockstep.goTo hbehind) fun _ => inferInstance
      · have hcond : ¬ (c == '"' || c == '\'') = true := by simpa using hquote
        rw [if_neg hcond, if_neg hcond]
        infer_instance

include hmarkup habove in
lemma tagAttribute_inLockstep : Lockstep setting above (tagAttribute g ctx) (tagAttribute g ctx) := by
  unfold tagAttribute
  refine Lockstep.bind inferInstance fun start start' _ => Lockstep.bindPlain inferInstance fun _ => ?_
  refine Lockstep.ite inferInstance (Lockstep.get fun s s' hs => ?_)
  rw [hs.here.head?_eq]
  refine Lockstep.ite ?_ inferInstance
  refine Lockstep.bindPlain inferInstance fun _ => ?_
  dsimp only
  have hrest : Lockstep setting above (do
      let name ← node start .attributeName []
      if ← eat .assign then
        let value ← attributeValue g ctx
        return some (← node start .tagAttribute [name, value])
      else return some (← node start .tagAttribute [name])) (do
      let name ← node start' .attributeName []
      if ← eat .assign then
        let value ← attributeValue g ctx
        return some (← node start' .tagAttribute [name, value])
      else return some (← node start' .tagAttribute [name])) := by
    refine Lockstep.bind inferInstance fun name name' _ => Lockstep.eatIf (fun t t' ht htoken => ?_) inferInstance
    obtain ⟨passed, ahead, h⟩ := ht.beforeValue habove htoken
    exact (h.bothParse hmarkup).bind fun value value' _ => inferInstance
  infer_instance

/-! ## Children -/

instance : Lockstep setting above (markupContainer g ctx) (markupContainer g ctx) := by
  unfold markupContainer
  infer_instance

/-- The first one of the pieces stays, so both places move on or none does. -/
lemma Reached.moves_eq {pieces : List Piece} {offset offset' : Nat} {place place' : Token.Place}
    (h : Reached pieces offset offset' place place') (hstart : startsKept pieces) :
    (place.2 != offset) = (place'.2 != offset') := by
  obtain ⟨passed, ahead, rfl, -, rfl, rfl⟩ := h
  cases passed with
  | nil => simp [whole, kept]
  | cons piece passed =>
    cases piece with
    | line chars => exact hstart.elim
    | char c =>
      have hsize := c.utf8Size_pos
      have hne : ∀ offset rest, (offset + byteSize (c :: rest) != offset) = true := by
        intro offset rest
        rw [Text.byteSize_cons, bne_iff_ne]
        omega
      rw [whole, kept]
      exact (hne _ _).trans (hne _ _).symm

include hmarkup habove in
lemma markupChild_inLockstep : Lockstep setting above (markupChild g ctx) (markupChild g ctx) := by
  have : Goal.markup.Fits setting := ⟨fun _ => hmarkup⟩
  unfold markupChild
  refine Lockstep.lastEndGet fun s s' hs => ?_
  obtain ⟨passed, ahead, hpieces, hstart, hharmless, hplace, hplace'⟩ := hs.last
  rw [hplace, hplace']
  dsimp only
  have hfound := skipMarkupText_sideBySide hharmless habove (byteSize (whole passed)) (byteSize (kept passed))
  generalize skipMarkupText (whole ahead) (byteSize (whole passed)) = found at hfound ⊢
  generalize skipMarkupText (kept ahead) (byteSize (kept passed)) = found' at hfound ⊢
  cases hfound with
  | none => exact Lockstep.failure
  | @some place place' hreached =>
    refine Lockstep.bindPlain (Lockstep.goTo (hreached.abreast hpieces hharmless)) fun _ => ?_
    rw [hreached.moves_eq hstart]
    have hstart : Twins setting (byteSize (whole passed)) (byteSize (kept passed)) := ⟨passed, ahead, hpieces, hstart, rfl, rfl⟩
    infer_instance

include hmarkup habove in
lemma markupChildren_inLockstep {name name' : TokenReader Unit} [Lockstep setting above name name'] :
    Lockstep setting above (markupChildren g ctx name) (markupChildren g ctx name') := by
  unfold markupChildren
  have hchild : Lockstep setting above (markupChild g ctx) (markupChild g ctx) := markupChild_inLockstep hmarkup habove
  infer_instance

include hmarkup in
lemma markup_inLockstep : Lockstep setting above (markup g ctx) (markup g ctx) := by
  unfold markup
  refine Lockstep.bind inferInstance fun start start' _ => Lockstep.openAngleBind ?_
  generalize hinner : ({ above with angle := above.angle || setting.markup } : Above) = inner
  have habove : inner.angle = true := by rw [← hinner, hmarkup, Bool.or_true]
  have hattribute : Lockstep setting inner (tagAttribute g ctx) (tagAttribute g ctx) :=
    tagAttribute_inLockstep hmarkup habove
  have hchildren {name : TokenReader Unit} [Lockstep setting inner name name] :
      Lockstep setting inner (markupChildren g ctx name) (markupChildren g ctx name) :=
    markupChildren_inLockstep hmarkup habove
  refine Lockstep.bindPlain inferInstance fun _ => Lockstep.ite inferInstance ?_
  refine Lockstep.bindPair inferInstance fun name name' pieces pieces' _ hpieces => ?_
  obtain rfl := hpieces.eq
  dsimp only
  infer_instance

end

end SpaMigration.Syntax
