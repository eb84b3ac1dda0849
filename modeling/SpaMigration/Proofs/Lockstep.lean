import Mathlib.Data.List.Forall2
import SpaMigration.Proofs.TokensAbreast
import SpaMigration.Syntax.Parse

/-!
# Parsers in lockstep

Two runs of a parser, one over a text and one over its characters that stay, go from token to token side by side: both
fail, or both find the same but for the offsets, which are those of corresponding places. The classes of this module
have instances for the parsers that others are made of, so that of a parser made of these little more than its
branches is left to go through.
-/
namespace SpaMigration.Syntax

open Text (byteSize)
open Token (Place)

/-- What is read: the pieces of a text, and whether there is markup in its dialect. -/
structure Setting where
  markup : Bool
  pieces : List Piece

variable {setting : Setting} {above : Above}

/-! ## Places and states -/

variable (setting above) in
/-- The place in the text and the one in its characters that stay have the same pieces ahead. The first of these stays,
and what goes is harmless behind what was opened. -/
def Abreast (place place' : Place) : Prop :=
  ∃ passed ahead, setting.pieces = passed ++ ahead ∧ startsKept ahead ∧ Harmless setting.markup above ahead ∧
    place = (whole ahead, byteSize (whole passed)) ∧ place' = (kept ahead, byteSize (kept passed))

variable (setting) in
/-- Offsets of corresponding places. -/
def AreMarks (offset offset' : Nat) : Prop :=
  ∃ passed ahead, setting.pieces = passed ++ ahead ∧ startsKept ahead ∧
    offset = byteSize (whole passed) ∧ offset' = byteSize (kept passed)

lemma Abreast.areMarks {place place' : Place} (h : Abreast setting above place place') :
    AreMarks setting place.2 place'.2 := by
  obtain ⟨passed, ahead, hpieces, hstart, -, rfl, rfl⟩ := h
  exact ⟨passed, ahead, hpieces, hstart, rfl, rfl⟩

lemma Abreast.anti {other : Above} {place place' : Place} (h : Abreast setting other place place')
    (hle : above ≤ other) : Abreast setting above place place' := by
  obtain ⟨passed, ahead, hpieces, hstart, hharmless, hplaces⟩ := h
  exact ⟨passed, ahead, hpieces, hstart, hharmless.anti hle, hplaces⟩

/-- What is reached side by side from corresponding places are corresponding places. -/
lemma Reached.abreast {passed ahead : List Piece} {place place' : Place} (hpieces : setting.pieces = passed ++ ahead)
    (hharmless : Harmless setting.markup above ahead)
    (h : Reached ahead (byteSize (whole passed)) (byteSize (kept passed)) place place') :
    Abreast setting above place place' := by
  obtain ⟨between, behind, rfl, hstart, rfl, rfl⟩ := h
  refine ⟨passed ++ between, behind, by rw [hpieces, List.append_assoc], hstart, hharmless.of_append, ?_, ?_⟩
  · rw [whole_append, Text.byteSize_append]
  · rw [kept_append, Text.byteSize_append]

/-- A search that stays on its line comes from corresponding places to such places. -/
lemma Abreast.search {place place' : Place} (h : Abreast setting above place place')
    {search : Place → Option Place} (hsearch : StaysOnLine search) :
    Option.Rel (Abreast setting above) (search place) (search place') := by
  obtain ⟨passed, ahead, hpieces, hstart, hharmless, rfl, rfl⟩ := h
  have hfound := hsearch.bothReach hstart hharmless (byteSize (whole passed)) (byteSize (kept passed))
  generalize search (whole ahead, byteSize (whole passed)) = found at hfound ⊢
  generalize search (kept ahead, byteSize (kept passed)) = found' at hfound ⊢
  cases hfound with
  | none => exact .none
  | some hreached => exact .some (hreached.abreast hpieces hharmless)

/-- The characters of a kind that come next are the same, where no line feed is of the kind. -/
lemma Abreast.dropWhile {place place' : Place} (h : Abreast setting above place place') {p : Char → Bool}
    (hp : p '\n' = false) : place.1.takeWhile p = place'.1.takeWhile p ∧ Abreast setting above
      (place.1.drop (place.1.takeWhile p).length, place.2 + byteSize (place.1.takeWhile p))
      (place'.1.drop (place'.1.takeWhile p).length, place'.2 + byteSize (place'.1.takeWhile p)) := by
  obtain ⟨passed, ahead, hpieces, hstart, hharmless, rfl, rfl⟩ := h
  obtain ⟨line, behind, hline⟩ := exists_firstLine hstart hharmless
  have hplaces := hline.reached (Token.onLine_dropWhile p (kept behind) (byteSize (whole passed)) (byteSize (kept passed)))
  rw [hline.whole_eq, hline.kept_eq, Token.takeWhile_append hp hline.ends, Token.takeWhile_append hp hline.ends']
  exact ⟨rfl, hplaces.abreast hpieces hharmless⟩

/-- What stands at corresponding places: nothing, or the same character, behind which the places correspond again. -/
lemma Abreast.cases {place place' : Place} (h : Abreast setting above place place') :
    (place.1 = [] ∧ place'.1 = []) ∨ ∃ c ahead rest rest', Harmless setting.markup above (.char c :: ahead) ∧
      place = (c :: rest, place.2) ∧ place' = (c :: rest', place'.2) ∧ rest = whole ahead ∧ 
      (c ≠ '\n' → Abreast setting (above.behind setting.markup c ahead) (rest, place.2 + c.utf8Size)
        (rest', place'.2 + c.utf8Size)) := by
  obtain ⟨passed, ahead, hpieces, hstart, hharmless, rfl, rfl⟩ := h
  cases ahead with
  | nil => exact .inl ⟨rfl, rfl⟩
  | cons piece ahead =>
    cases piece with
    | line chars => exact hstart.elim
    | char c =>
      refine .inr ⟨c, ahead, whole ahead, kept ahead, hharmless, rfl, rfl, rfl, fun hc => ?_⟩
      refine ⟨passed ++ [.char c], ahead, by rw [hpieces, List.append_assoc]; rfl, hharmless.1 hc, hharmless.2.2.2, ?_, ?_⟩
      · simp [whole]
      · simp [kept]

lemma Abreast.head?_eq {place place' : Place} (h : Abreast setting above place place') :
    place.1.head? = place'.1.head? := by
  obtain ⟨passed, ahead, -, hstart, -, rfl, rfl⟩ := h
  exact head?_whole hstart

variable (setting above) in
/-- States in front of the same token at corresponding places. -/
structure Beside (s s' : ReaderState) : Prop where
  token : s.token = s'.token
  newline : s.newline = s'.newline
  lo : AreMarks setting s.span.lo s'.span.lo
  here : Abreast setting above s.here s'.here
  behind : Abreast setting above s.behind s'.behind
  last : Abreast setting above s.last s'.last
  reads : s.token ≠ .invalid → Token.read s.here = (s.token, s.behind)
  reads' : s'.token ≠ .invalid → Token.read s'.here = (s'.token, s'.behind)

lemma Beside.anti {other : Above} {s s' : ReaderState} (h : Beside setting other s s') (hle : above ≤ other) :
    Beside setting above s s' :=
  { h with here := h.here.anti hle, behind := h.behind.anti hle, last := h.last.anti hle }

/-- The states behind corresponding places. -/
lemma beside_after {place place' : Place} (h : Abreast setting above place place') :
    Beside setting above (.after place) (.after place') := by
  obtain ⟨passed, ahead, hpieces, hstart, hharmless, rfl, rfl⟩ := id h
  have hgap := skipGap_code_sideBySide hharmless (byteSize (whole passed)) (byteSize (kept passed)) false (.inl hstart)
  simp only [ReaderState.after]
  cases hskip : Token.skipGap .code (whole ahead) (byteSize (whole passed)) false with
  | none =>
    rw [hskip] at hgap
    generalize Token.skipGap .code (kept ahead) (byteSize (kept passed)) false = found' at hgap ⊢
    cases hgap with
    | none => exact ⟨rfl, rfl, h.areMarks, h, h, h, fun hvalid => absurd rfl hvalid, fun hvalid => absurd rfl hvalid⟩
  | some found =>
    rw [hskip] at hgap
    generalize Token.skipGap .code (kept ahead) (byteSize (kept passed)) false = found' at hgap ⊢
    cases hgap with
    | some hfound =>
      rename_i found'
      obtain ⟨here, newline⟩ := found
      obtain ⟨here', newline'⟩ := found'
      obtain ⟨hreached, rfl⟩ := hfound
      have hhead := head?_of_skipGap hskip
      obtain ⟨between, behind, rfl, hnext, rfl, rfl⟩ := id hreached
      have hread := read_sideBySide hnext hharmless.of_append hhead
        (byteSize (whole passed) + byteSize (whole between)) (byteSize (kept passed) + byteSize (kept between))
      have hhere := hreached.abreast hpieces hharmless
      have hbehind : Reached (between ++ behind) (byteSize (whole passed)) (byteSize (kept passed))
          (Token.read (whole behind, byteSize (whole passed) + byteSize (whole between))).2
          (Token.read (kept behind, byteSize (kept passed) + byteSize (kept between))).2 := by
        obtain ⟨more, rest, rfl, hrest, hplace, hplace'⟩ := hread.2
        refine ⟨between ++ more, rest, by rw [List.append_assoc], hrest, ?_, ?_⟩
        · rw [hplace, whole_append, Text.byteSize_append, Nat.add_assoc]
        · rw [hplace', kept_append, Text.byteSize_append, Nat.add_assoc]
      exact ⟨hread.1, rfl, hhere.areMarks, hhere, hbehind.abreast hpieces hharmless, h, fun _ => rfl, fun _ => rfl⟩

lemma Beside.next {s s' : ReaderState} (h : Beside setting above s s') : Beside setting above s.next s'.next :=
  beside_after h.behind

/-- A backtick or a sign of assignment is one piece. -/
lemma Beside.behind_mark {s s' : ReaderState} {p : Punct} {c : Char} (hs : Beside setting above s s')
    (hmark : p = .backtick ∧ c = '\x60' ∨ p = .assign ∧ c = '=') (htoken : s.token = .punct p) :
    ∃ passed ahead, setting.pieces = passed ++ .char c :: ahead ∧ Harmless setting.markup above (.char c :: ahead) ∧
      s.behind = (whole ahead, byteSize (whole (passed ++ [.char c]))) ∧
      s'.behind = (kept ahead, byteSize (kept (passed ++ [.char c]))) := by
  have hone : ∀ {place behind : Place}, Token.read place = (.punct p, behind) →
      ∃ rest, place.1 = c :: rest ∧ behind = (rest, place.2 + c.utf8Size) := by
    intro place behind hread
    obtain ⟨n, hpunct, rfl⟩ := Token.punct?_of_read hread
    obtain ⟨taken, rest, hplace, rfl, -, hbacktick, hassign⟩ := Token.exists_of_punct? hpunct
    rcases hmark with ⟨rfl, rfl⟩ | ⟨rfl, rfl⟩
    · obtain rfl := hbacktick rfl
      exact ⟨rest, hplace, by rw [hplace]; rfl⟩
    · obtain rfl := hassign rfl
      exact ⟨rest, hplace, by rw [hplace]; rfl⟩
  have hvalid : s.token ≠ .invalid := by rw [htoken]; exact nofun
  obtain ⟨rest, hhere, hbehind⟩ := hone (htoken ▸ hs.reads hvalid)
  obtain ⟨rest', hhere', hbehind'⟩ := hone ((hs.token ▸ htoken) ▸ hs.reads' (hs.token ▸ hvalid))
  obtain ⟨passed, ahead, hpieces, hstart, hharmless, hplace, hplace'⟩ := hs.here
  rw [hplace] at hhere hbehind
  rw [hplace'] at hhere' hbehind'
  cases ahead with
  | nil => cases hhere
  | cons piece ahead =>
    cases piece with
    | line chars => exact hstart.elim
    | char d =>
      cases hhere
      cases hhere'
      refine ⟨passed, ahead, hpieces, hharmless, ?_, ?_⟩
      · rw [hbehind, whole_append, Text.byteSize_append]
        rfl
      · rw [hbehind', kept_append, Text.byteSize_append]
        rfl

/-! ## Results -/

/-- A kind of results, and when one of them is the same in both readings. -/
class HasTwins (α : Type) where
  areTwins : Setting → α → α → Prop

/-- The results are the same in both readings, but for the offsets. -/
class Twins {α : Type} [HasTwins α] (setting : Setting) (a a' : α) : Prop where
  areTwins : HasTwins.areTwins setting a a'

/-- Results of both readings. -/
structure TwinPair (setting : Setting) (α : Type) [HasTwins α] where
  left : α
  right : α
  areTwins : Twins setting left right

instance {α : Type} [HasTwins α] (pair : TwinPair setting α) : Twins setting pair.left pair.right := pair.areTwins

/-- Results without offsets. -/
class OffsetFree (α : Type) [HasTwins α] : Prop where
  areTwins_iff : ∀ (setting : Setting) (a a' : α), HasTwins.areTwins setting a a' ↔ a = a'

/-- Results without offsets are twins when they are equal. -/
@[reducible] def HasTwins.plain (α : Type) : HasTwins α := ⟨fun _ a a' => a = a'⟩

instance : HasTwins Unit := .plain Unit
instance : HasTwins Bool := .plain Bool
instance : HasTwins Token := .plain Token
instance : HasTwins String := .plain String
instance : HasTwins Kind := .plain Kind
instance : HasTwins Accessor := .plain Accessor
instance : HasTwins TypedDeclaration := .plain TypedDeclaration
instance : OffsetFree Unit := ⟨fun _ _ _ => Iff.rfl⟩
instance : OffsetFree Bool := ⟨fun _ _ _ => Iff.rfl⟩
instance : OffsetFree Token := ⟨fun _ _ _ => Iff.rfl⟩
instance : OffsetFree String := ⟨fun _ _ _ => Iff.rfl⟩
instance : OffsetFree Kind := ⟨fun _ _ _ => Iff.rfl⟩
instance : OffsetFree Accessor := ⟨fun _ _ _ => Iff.rfl⟩
instance : OffsetFree TypedDeclaration := ⟨fun _ _ _ => Iff.rfl⟩

/-- The numbers that parsers find are offsets. -/
instance : HasTwins Nat := ⟨AreMarks⟩

namespace Node

mutual

/-- The nodes are of the same kinds, and what they cover is related. -/
def areAlike (spans : Span → Span → Prop) : Node → Node → Prop
  | .mk kind span parts, .mk kind' span' parts' => kind = kind' ∧ spans span span' ∧ areAllAlike spans parts parts'

/-- The same of several nodes. -/
def areAllAlike (spans : Span → Span → Prop) : List Node → List Node → Prop
  | [], [] => True
  | node :: nodes, node' :: nodes' => areAlike spans node node' ∧ areAllAlike spans nodes nodes'
  | _, _ => False

end

lemma areAllAlike_iff {spans : Span → Span → Prop} {nodes nodes' : List Node} :
    areAllAlike spans nodes nodes' ↔ List.Forall₂ (areAlike spans) nodes nodes' := by
  induction nodes generalizing nodes' with
  | nil => cases nodes' <;> simp [areAllAlike]
  | cons node nodes ih => cases nodes' <;> simp [areAllAlike, ih]

end Node

variable (setting) in
/-- Spans from one place to another, the ends of which correspond. -/
def AreSpans (span span' : Span) : Prop := AreMarks setting span.lo span'.lo ∧ AreMarks setting span.hi span'.hi

instance : HasTwins Node := ⟨fun setting => Node.areAlike (AreSpans setting)⟩

instance {α : Type} [HasTwins α] : HasTwins (Option α) := ⟨fun setting => Option.Rel (HasTwins.areTwins setting)⟩

instance {α : Type} [HasTwins α] : HasTwins (List α) := ⟨fun setting => List.Forall₂ (HasTwins.areTwins setting)⟩

instance {α β : Type} [HasTwins α] [HasTwins β] : HasTwins (α × β) :=
  ⟨fun setting pair pair' => HasTwins.areTwins setting pair.1 pair'.1 ∧ HasTwins.areTwins setting pair.2 pair'.2⟩

instance {α : Type} [HasTwins α] [OffsetFree α] : OffsetFree (Option α) where
  areTwins_iff setting a a' := by
    have hplain : HasTwins.areTwins (α := α) setting = Eq :=
      funext fun _ => funext fun _ => propext (OffsetFree.areTwins_iff setting _ _)
    cases a <;> cases a' <;> simp [HasTwins.areTwins, hplain]

instance {α : Type} [HasTwins α] [OffsetFree α] : OffsetFree (List α) where
  areTwins_iff setting a a' := by
    have hplain : HasTwins.areTwins (α := α) setting = Eq :=
      funext fun _ => funext fun _ => propext (OffsetFree.areTwins_iff setting _ _)
    simp only [HasTwins.areTwins, hplain, List.forall₂_eq_eq_eq]

instance {α β : Type} [HasTwins α] [HasTwins β] [OffsetFree α] [OffsetFree β] : OffsetFree (α × β) where
  areTwins_iff setting a a' := by
    simp only [HasTwins.areTwins, OffsetFree.areTwins_iff, Prod.ext_iff]

/-- A type in front of an operand is a twin of another one, and the other operators are themselves. -/
def PrefixOperator.areTwins (setting : Setting) : PrefixOperator → PrefixOperator → Prop
  | .assertion type, .assertion type' => Twins setting type type'
  | .step, .step | .delete, .delete | .other, .other => True
  | _, _ => False

instance : HasTwins PrefixOperator := ⟨PrefixOperator.areTwins⟩

/-- What follows an operand is of the same kind. -/
def Continuation.areTwins (setting : Setting) : Continuation → Continuation → Prop
  | .operand node, .operand node' | .type node, .type node' => Twins setting node node'
  | _, _ => False

instance : HasTwins Continuation := ⟨Continuation.areTwins⟩

instance : HasTwins FunctionTail := ⟨fun setting tail tail' => Twins setting tail.params tail'.params ∧
  Twins setting tail.body tail'.body ∧ Twins setting tail.types tail'.types⟩

instance : HasTwins ArrowHead := ⟨fun setting head head' => head.isAsync = head'.isAsync ∧
  Twins setting head.params head'.params ∧ Twins setting head.types head'.types⟩

namespace Twins

variable {α β : Type} [HasTwins α] [HasTwins β]

instance refl [OffsetFree α] (a : α) : Twins setting a a := ⟨(OffsetFree.areTwins_iff setting a a).mpr rfl⟩

lemma eq [OffsetFree α] {a a' : α} (h : Twins setting a a') : a = a' := (OffsetFree.areTwins_iff setting a a').mp h.areTwins

instance none : Twins setting (Option.none : Option α) .none := ⟨.none⟩

instance some {a a' : α} [h : Twins setting a a'] : Twins setting (Option.some a) (.some a') := ⟨.some h.areTwins⟩

instance pair {a a' : α} {b b' : β} [ha : Twins setting a a'] [hb : Twins setting b b'] :
    Twins setting (a, b) (a', b') := ⟨ha.areTwins, hb.areTwins⟩

instance nil : Twins setting ([] : List α) [] := ⟨.nil⟩

instance cons {a a' : α} {as as' : List α} [ha : Twins setting a a'] [has : Twins setting as as'] :
    Twins setting (a :: as) (a' :: as') := ⟨.cons ha.areTwins has.areTwins⟩

instance append {as as' bs bs' : List α} [has : Twins setting as as'] [hbs : Twins setting bs bs'] :
    Twins setting (as ++ bs) (as' ++ bs') := ⟨List.rel_append has.areTwins hbs.areTwins⟩

instance flatten {lists lists' : List (List α)} [h : Twins setting lists lists'] :
    Twins setting lists.flatten lists'.flatten := ⟨List.rel_flatten h.areTwins⟩

instance toList {a a' : Option α} [h : Twins setting a a'] : Twins setting a.toList a'.toList := by
  cases h.areTwins with
  | none => exact nil
  | some hvalue => exact ⟨.cons hvalue .nil⟩

instance getD {a a' : Option α} {b b' : α} [ha : Twins setting a a'] [hb : Twins setting b b'] :
    Twins setting (a.getD b) (a'.getD b') := by
  cases ha.areTwins with
  | none => exact hb
  | some hvalue => exact ⟨hvalue⟩

instance ite {b b' : Bool} {a a' c c' : α} [hb : Twins setting b b'] [ha : Twins setting a a'] [hc : Twins setting c c'] :
    Twins setting (if b then a else c) (if b' then a' else c') := by
  obtain rfl := hb.eq
  cases b
  · exact hc
  · exact ha

lemma all_eq {as as' : List α} (h : Twins setting as as') {p : α → Bool}
    (hp : ∀ a a', Twins setting a a' → p a = p a') : as.all p = as'.all p := by
  obtain ⟨h⟩ := h
  induction h with
  | nil => rfl
  | cons hvalue _ ih => rw [List.all_cons, List.all_cons, hp _ _ ⟨hvalue⟩, ih]

lemma any_eq {as as' : List α} (h : Twins setting as as') {p : α → Bool}
    (hp : ∀ a a', Twins setting a a' → p a = p a') : as.any p = as'.any p := by
  rw [List.any_eq_not_all_not, List.any_eq_not_all_not, h.all_eq fun a a' ha => congrArg (!·) (hp a a' ha)]

lemma countP_eq {as as' : List α} (h : Twins setting as as') {p : α → Bool}
    (hp : ∀ a a', Twins setting a a' → p a = p a') : as.countP p = as'.countP p := by
  obtain ⟨h⟩ := h
  induction h with
  | nil => rfl
  | cons hvalue _ ih => rw [List.countP_cons, List.countP_cons, hp _ _ ⟨hvalue⟩, ih]

lemma dropLast {as as' : List α} (h : Twins setting as as') : Twins setting as.dropLast as'.dropLast := by
  rw [List.dropLast_eq_take, List.dropLast_eq_take, h.areTwins.length_eq]
  exact ⟨List.forall₂_take _ h.areTwins⟩

lemma map {as as' : List α} (h : Twins setting as as') {f : α → β}
    (hf : ∀ a a', Twins setting a a' → Twins setting (f a) (f a')) : Twins setting (as.map f) (as'.map f) := by
  obtain ⟨h⟩ := h
  induction h with
  | nil => exact nil
  | cons hvalue _ ih => exact ⟨.cons (hf _ _ ⟨hvalue⟩).areTwins ih.areTwins⟩

lemma flatMap {as as' : List α} (h : Twins setting as as') {f : α → List β}
    (hf : ∀ a a', Twins setting a a' → Twins setting (f a) (f a')) : Twins setting (as.flatMap f) (as'.flatMap f) :=
  @flatten _ _ _ _ _ (h.map hf)

lemma filterMap {as as' : List α} (h : Twins setting as as') {f : α → Option β}
    (hf : ∀ a a', Twins setting a a' → Twins setting (f a) (f a')) :
    Twins setting (as.filterMap f) (as'.filterMap f) := by
  obtain ⟨h⟩ := h
  induction h with
  | nil => exact nil
  | @cons a a' as as' hvalue _ ih =>
    have hfound := (hf _ _ ⟨hvalue⟩).areTwins
    rw [List.filterMap_cons, List.filterMap_cons]
    generalize f a = found at hfound
    generalize f a' = found' at hfound
    cases hfound with
    | none => exact ih
    | some hfound => exact ⟨.cons hfound ih.areTwins⟩

instance getLast? {as as' : List α} [h : Twins setting as as'] : Twins setting as.getLast? as'.getLast? := by
  have hreverse := List.forall₂_reverse_iff.mpr h.areTwins
  rw [List.getLast?_eq_head?_reverse, List.getLast?_eq_head?_reverse]
  generalize as.reverse = front at hreverse
  generalize as'.reverse = front' at hreverse
  cases hreverse with
  | nil => exact none
  | cons hvalue => exact ⟨.some hvalue⟩

instance not {b b' : Bool} [h : Twins setting b b'] : Twins setting (!b) (!b') := ⟨congrArg (!·) h.eq⟩

instance and {b b' c c' : Bool} [hb : Twins setting b b'] [hc : Twins setting c c'] :
    Twins setting (b && c) (b' && c') := ⟨congrArg₂ (· && ·) hb.eq hc.eq⟩

instance or {b b' c c' : Bool} [hb : Twins setting b b'] [hc : Twins setting c c'] :
    Twins setting (b || c) (b' || c') := ⟨congrArg₂ (· || ·) hb.eq hc.eq⟩

instance beq [OffsetFree α] [BEq α] {a a' b : α} [h : Twins setting a a'] : Twins setting (a == b) (a' == b) :=
  ⟨congrArg (· == b) h.eq⟩

instance bne [OffsetFree α] [BEq α] {a a' b : α} [h : Twins setting a a'] : Twins setting (a != b) (a' != b) :=
  ⟨congrArg (· != b) h.eq⟩

instance isEmpty {as as' : List α} [h : Twins setting as as'] : Twins setting as.isEmpty as'.isEmpty := by
  cases h.areTwins <;> exact refl _

lemma isEmpty_eq {as as' : List α} (h : Twins setting as as') : as.isEmpty = as'.isEmpty := by
  cases h.areTwins <;> rfl

lemma length_eq {as as' : List α} (h : Twins setting as as') : as.length = as'.length := h.areTwins.length_eq

variable {node node' : Node}

instance kind [h : Twins setting node node'] : Twins setting node.kind node'.kind := by
  cases node
  cases node'
  exact ⟨h.areTwins.1⟩

lemma kind_eq (h : Twins setting node node') : node.kind = node'.kind := h.kind.eq

instance lo [h : Twins setting node node'] : Twins setting node.span.lo node'.span.lo := by
  cases node
  cases node'
  exact ⟨h.areTwins.2.1.1⟩

instance parts [h : Twins setting node node'] : Twins setting node.parts node'.parts := by
  cases node
  cases node'
  exact ⟨Node.areAllAlike_iff.mp h.areTwins.2.2⟩

lemma ofNode {kind : Kind} {span span' : Span} {parts parts' : List Node} (hlo : Twins setting span.lo span'.lo)
    (hhi : Twins setting span.hi span'.hi) (hparts : Twins setting parts parts') :
    Twins setting (Node.mk kind span parts) (.mk kind span' parts') :=
  ⟨rfl, ⟨hlo.areTwins, hhi.areTwins⟩, Node.areAllAlike_iff.mpr hparts.areTwins⟩

variable {tail tail' : FunctionTail} {head head' : ArrowHead} {nodes nodes' params params' body body' types types' : List Node}

instance tailMk [hparams : Twins setting params params'] [hbody : Twins setting body body']
    [htypes : Twins setting types types'] :
    Twins setting (FunctionTail.mk params body types) (.mk params' body' types') := ⟨hparams, hbody, htypes⟩

instance headMk {isAsync : Bool} [hparams : Twins setting params params'] [htypes : Twins setting types types'] :
    Twins setting (ArrowHead.mk isAsync params types) (.mk isAsync params' types') := ⟨rfl, hparams, htypes⟩

instance tailParams [h : Twins setting tail tail'] : Twins setting tail.params tail'.params := h.areTwins.1

instance tailParts [h : Twins setting tail tail'] [hmarks : Twins setting nodes nodes'] :
    Twins setting (tail.parts nodes) (tail'.parts nodes') := by
  obtain ⟨hparams, hbody, htypes⟩ := h.areTwins
  exact append

end Twins

/-! ## Parsers -/

/-- Both runs of a parser fail, or both find the same and end in front of the same token. -/
abbrev BothParse {α : Type} [HasTwins α] (setting : Setting) (above : Above) :
    Option (α × ReaderState) → Option (α × ReaderState) → Prop :=
  Option.Rel fun r r' => Twins setting r.1 r'.1 ∧ Beside setting above r.2 r'.2

/-- From states in front of the same token, both parsers fail, or both find the same and end in such states. -/
class Lockstep {α : Type} [HasTwins α] (setting : Setting) (above : Above) (p p' : TokenReader α) : Prop where
  run : ∀ {s s' : ReaderState}, Beside setting above s s' → BothParse setting above (p.run s) (p'.run s')

section

variable {α β : Type} [HasTwins α] [HasTwins β] {found found' : Option (α × ReaderState)}

lemma BothParse.anti {other : Above} (h : BothParse setting other found found') (hle : above ≤ other) :
    BothParse setting above found found' := by
  cases h with
  | none => exact .none
  | some h => exact .some ⟨h.1, h.2.anti hle⟩

lemma BothParse.bind {p p' : TokenReader α} {f f' : α → TokenReader β} {s s' : ReaderState}
    (h : BothParse setting above (p.run s) (p'.run s'))
    (hf : ∀ a a', Twins setting a a' → Lockstep setting above (f a) (f' a')) :
    BothParse setting above ((p >>= f).run s) ((p' >>= f').run s') := by
  rw [StateT.run_bind, StateT.run_bind]
  revert h
  generalize p.run s = found
  generalize p'.run s' = found'
  intro h
  cases h with
  | none => exact .none
  | some h => exact (hf _ _ h.1).run h.2

end

/-- The context belongs to the dialect of what is read. -/
class Context.Fits (ctx : Context) (setting : Setting) : Prop where
  markup : ctx.dialect.markup = setting.markup

namespace Context.Fits

variable {ctx : Context} [h : ctx.Fits setting]

instance inside : ctx.inside.Fits setting := ⟨h.markup⟩
instance arrowBody (isAsync : Bool) : (ctx.arrowBody isAsync).Fits setting := ⟨h.markup⟩
instance body (isAsync isGenerator : Bool) : (ctx.body isAsync isGenerator).Fits setting := ⟨h.markup⟩
instance free : ctx.free.Fits setting := ⟨h.markup⟩
instance member : ctx.member.Fits setting := ⟨h.markup⟩
instance loop : ctx.loop.Fits setting := ⟨h.markup⟩

instance update {allowIn allowArrowType inFunction inMember inConstructible inAsync inGenerator canBreak canContinue : Bool}
    {labels : List String} {ambient : Bool} : (Context.mk ctx.dialect allowIn allowArrowType inFunction inMember
      inConstructible inAsync inGenerator canBreak canContinue labels ambient).Fits setting := ⟨h.markup⟩

end Context.Fits

/-- Markup is asked for where there is markup only. -/
class Goal.Fits (goal : Goal) (setting : Setting) : Prop where
  markup : goal = .markup → setting.markup = true

instance : Goal.expression.Fits setting := ⟨nofun⟩
instance : Goal.assignment.Fits setting := ⟨nofun⟩
instance : Goal.leftHandSide.Fits setting := ⟨nofun⟩
instance : Goal.construction.Fits setting := ⟨nofun⟩
instance : Goal.statement.Fits setting := ⟨nofun⟩
instance : Goal.moduleItem.Fits setting := ⟨nofun⟩
instance : Goal.binding.Fits setting := ⟨nofun⟩
instance : Goal.type.Fits setting := ⟨nofun⟩
instance : Goal.plainType.Fits setting := ⟨nofun⟩

/-- The parsers for the constructs that contain themselves go in lockstep. -/
class Grammar.InLockstep (g : Grammar) (setting : Setting) : Prop where
  parse : ∀ (goal : Goal) (ctx : Context) [goal.Fits setting] [ctx.Fits setting] (above : Above),
    Lockstep setting above (g.parse goal ctx) (g.parse goal ctx)

namespace Lockstep

open TokenReader

variable {α β : Type} [HasTwins α] [HasTwins β]

instance pure {a a' : α} [h : Twins setting a a'] :
    Lockstep setting above (Pure.pure a : TokenReader α) (Pure.pure a') := ⟨fun hs => .some ⟨h, hs⟩⟩

instance failure : Lockstep setting above (failure : TokenReader α) failure := ⟨fun _ => .none⟩

/-- One parser after another, which uses what the first one has found. -/
lemma bind {p p' : TokenReader α} {f f' : α → TokenReader β} (hp : Lockstep setting above p p')
    (hf : ∀ a a', Twins setting a a' → Lockstep setting above (f a) (f' a')) :
    Lockstep setting above (p >>= f) (p' >>= f') := ⟨fun hs => (hp.run hs).bind hf⟩

/-- The same where the first one finds no offsets. -/
lemma bindPlain [OffsetFree α] {p p' : TokenReader α} {f f' : α → TokenReader β} (hp : Lockstep setting above p p')
    (hf : ∀ a, Lockstep setting above (f a) (f' a)) : Lockstep setting above (p >>= f) (p' >>= f') :=
  hp.bind fun a a' h => by
    obtain rfl := h.eq
    exact hf a

/-- The same where the first one may find nothing. -/
lemma bindOption {p p' : TokenReader (Option α)} {f f' : Option α → TokenReader β} (hp : Lockstep setting above p p')
    (hnone : Lockstep setting above (f none) (f' none))
    (hsome : ∀ a a', Twins setting a a' → Lockstep setting above (f (some a)) (f' (some a'))) :
    Lockstep setting above (p >>= f) (p' >>= f') :=
  hp.bind fun a a' h => by
    cases h.areTwins with
    | none => exact hnone
    | some hvalue => exact hsome _ _ ⟨hvalue⟩

/-- The same where the first one finds a pair. -/
lemma bindPair {γ : Type} [HasTwins γ] {p p' : TokenReader (α × γ)} {f f' : α × γ → TokenReader β}
    (hp : Lockstep setting above p p')
    (hf : ∀ a a' b b', Twins setting a a' → Twins setting b b' → Lockstep setting above (f (a, b)) (f' (a', b'))) :
    Lockstep setting above (p >>= f) (p' >>= f') :=
  hp.bind fun a a' h => hf a.1 a'.1 a.2 a'.2 ⟨h.areTwins.1⟩ ⟨h.areTwins.2⟩

lemma map {p p' : TokenReader α} {f : α → β} (hp : Lockstep setting above p p')
    (hf : ∀ a a', Twins setting a a' → Twins setting (f a) (f a')) : Lockstep setting above (f <$> p) (f <$> p') := by
  rw [map_eq_pure_bind, map_eq_pure_bind]
  exact hp.bind fun a a' h => @Lockstep.pure _ _ _ _ _ _ (hf a a' h)

lemma ite {b : Bool} {p p' q q' : TokenReader α} (hp : Lockstep setting above p p')
    (hq : Lockstep setting above q q') : Lockstep setting above (if b then p else q) (if b then p' else q') := by
  cases b
  · exact hq
  · exact hp

lemma attempt {p p' : TokenReader α} (hp : Lockstep setting above p p') :
    Lockstep setting above (attempt p) (attempt p') where
  run {s s'} hs := by
    have hfound : Option.Rel _ (p s) (p' s') := hp.run hs
    change Option.Rel _ (TokenReader.attempt p s) (TokenReader.attempt p' s')
    simp only [TokenReader.attempt]
    generalize p s = found at hfound
    generalize p' s' = found' at hfound
    cases hfound with
    | none => exact .some ⟨Twins.none, hs⟩
    | some h => exact .some ⟨⟨.some h.1.areTwins⟩, h.2⟩

lemma wouldSucceed {p p' : TokenReader α} (hp : Lockstep setting above p p') :
    Lockstep setting above (wouldSucceed p) (wouldSucceed p') where
  run {s s'} hs := by
    have hfound : Option.Rel _ (p s) (p' s') := hp.run hs
    change Option.Rel _ (TokenReader.wouldSucceed p s) (TokenReader.wouldSucceed p' s')
    simp only [TokenReader.wouldSucceed]
    generalize p s = found at hfound
    generalize p' s' = found' at hfound
    cases hfound <;> exact .some ⟨Twins.refl _, hs⟩

/-- A parser for each of some values. -/
lemma mapM {as as' : List α} {f f' : α → TokenReader β} (has : Twins setting as as')
    (hf : ∀ a a', Twins setting a a' → Lockstep setting above (f a) (f' a')) :
    Lockstep setting above (as.mapM f) (as'.mapM f') := by
  obtain ⟨has⟩ := has
  induction has with
  | nil =>
    rw [List.mapM_nil, List.mapM_nil]
    exact Lockstep.pure
  | cons hvalue _ ih =>
    rw [List.mapM_cons, List.mapM_cons]
    exact (hf _ _ ⟨hvalue⟩).bind fun b b' _ => ih.bind fun bs bs' _ => Lockstep.pure

/-- Rounds of a parser, as many of them. -/
lemma collect {round round' : TokenReader (Option α)} (h : Lockstep setting above round round') (fuel : Nat) :
    Lockstep setting above (collect round fuel) (collect round' fuel) := by
  induction fuel with
  | zero => exact failure
  | succ fuel ih =>
    refine h.bindOption Lockstep.pure fun a a' ha => ?_
    exact ih.bind fun as as' has => Lockstep.pure

/-! The rules are found by their shape. -/

section

variable {p p' : TokenReader α}

instance (priority := high) [OffsetFree α] {f f' : α → TokenReader β} [hp : Lockstep setting above p p']
    [hf : ∀ a, Lockstep setting above (f a) (f' a)] : Lockstep setting above (p >>= f) (p' >>= f') := hp.bindPlain hf

instance {f f' : α → TokenReader β} [hp : Lockstep setting above p p']
    [hf : ∀ pair : TwinPair setting α, Lockstep setting above (f pair.left) (f' pair.right)] :
    Lockstep setting above (p >>= f) (p' >>= f') := hp.bind fun a a' h => hf ⟨a, a', h⟩

instance (priority := high) {p p' : TokenReader (Option α)} {f f' : Option α → TokenReader β} [hp : Lockstep setting above p p']
    [hnone : Lockstep setting above (f none) (f' none)]
    [hsome : ∀ pair : TwinPair setting α, Lockstep setting above (f (some pair.left)) (f' (some pair.right))] :
    Lockstep setting above (p >>= f) (p' >>= f') := hp.bindOption hnone fun a a' h => hsome ⟨a, a', h⟩

instance (priority := high) [OffsetFree α] {p p' : TokenReader (Option α)} {f f' : Option α → TokenReader β}
    [hp : Lockstep setting above p p'] [hnone : Lockstep setting above (f none) (f' none)]
    [hsome : ∀ a, Lockstep setting above (f (some a)) (f' (some a))] :
    Lockstep setting above (p >>= f) (p' >>= f') := hp.bindPlain fun a => by
  cases a with
  | none => exact hnone
  | some a => exact hsome a

instance (priority := high) {γ : Type} [HasTwins γ] {p p' : TokenReader (α × γ)} {f f' : α × γ → TokenReader β}
    [hp : Lockstep setting above p p'] [hf : ∀ (pair : TwinPair setting α) (other : TwinPair setting γ),
      Lockstep setting above (f (pair.left, other.left)) (f' (pair.right, other.right))] :
    Lockstep setting above (p >>= f) (p' >>= f') := hp.bindPair fun a a' b b' ha hb => hf ⟨a, a', ha⟩ ⟨b, b', hb⟩

instance {b b' : Bool} {q q' : TokenReader α} [hb : Twins setting b b'] [hp : Lockstep setting above p p']
    [hq : Lockstep setting above q q'] : Lockstep setting above (if b then p else q) (if b' then p' else q') := by
  obtain rfl := hb.eq
  exact hp.ite hq

instance {f : α → β} [hp : Lockstep setting above p p'] [hf : ∀ pair : TwinPair setting α, Twins setting (f pair.left) (f pair.right)] :
    Lockstep setting above (f <$> p) (f <$> p') := hp.map fun a a' h => hf ⟨a, a', h⟩

instance [hp : Lockstep setting above p p'] : Lockstep setting above (TokenReader.attempt p) (TokenReader.attempt p') :=
  hp.attempt

instance [hp : Lockstep setting above p p'] :
    Lockstep setting above (TokenReader.wouldSucceed p) (TokenReader.wouldSucceed p') := hp.wouldSucceed

instance {round round' : TokenReader (Option α)} [h : Lockstep setting above round round'] (fuel : Nat) :
    Lockstep setting above (TokenReader.collect round fuel) (TokenReader.collect round' fuel) := h.collect fuel

end

/-! ### Tokens -/

instance token : Lockstep setting above token token :=
  ⟨fun {_ _} hs => .some ⟨⟨hs.token⟩, hs⟩⟩

instance peek : Lockstep setting above peek peek :=
  ⟨fun {_ _} hs => .some ⟨⟨hs.next.token, hs.next.newline⟩, hs⟩⟩

instance advance : Lockstep setting above advance advance :=
  ⟨fun {_ _} hs => .some ⟨⟨rfl⟩, hs.next⟩⟩

instance offset : Lockstep setting above offset offset :=
  ⟨fun {_ _} hs => .some ⟨⟨hs.lo⟩, hs⟩⟩

instance lastEnd : Lockstep setting above lastEnd lastEnd :=
  ⟨fun {_ _} hs => .some ⟨⟨hs.last.areMarks⟩, hs⟩⟩

instance newlineBefore : Lockstep setting above newlineBefore newlineBefore :=
  ⟨fun {_ _} hs => .some ⟨⟨hs.newline⟩, hs⟩⟩

instance require {b b' : Bool} [hb : Twins setting b b'] : Lockstep setting above (require b) (require b') := by
  obtain rfl := hb.eq
  unfold TokenReader.require
  exact ite pure failure

instance atPunct (p : Punct) : Lockstep setting above (atPunct p) (atPunct p) := token.bindPlain fun _ => pure

instance atWord (name : String) : Lockstep setting above (atWord name) (atWord name) := token.bindPlain fun _ => pure

instance atAnyWord : Lockstep setting above atAnyWord atAnyWord := by
  unfold TokenReader.atAnyWord
  refine token.bindPlain fun next => ?_
  split <;> exact pure

instance eat (p : Punct) : Lockstep setting above (eat p) (eat p) := by
  unfold TokenReader.eat
  exact (atPunct p).bindPlain fun b => ite (advance.bindPlain fun _ => pure) pure

instance eatWord (name : String) : Lockstep setting above (eatWord name) (eatWord name) := by
  unfold TokenReader.eatWord
  exact (atWord name).bindPlain fun b => ite (advance.bindPlain fun _ => pure) pure

instance expect (p : Punct) : Lockstep setting above (expect p) (expect p) := (eat p).bindPlain fun _ => require

instance expectWord (name : String) : Lockstep setting above (expectWord name) (expectWord name) :=
  (eatWord name).bindPlain fun _ => require

/-- A node ends at the last token, wherever it starts. -/
instance node {start start' : Nat} {kind kind' : Kind} {parts parts' : List Node} [hstart : Twins setting start start']
    [hkind : Twins setting kind kind'] [hparts : Twins setting parts parts'] :
    Lockstep setting above (node start kind parts) (node start' kind' parts') := by
  obtain rfl := hkind.eq
  exact lastEnd.bind fun _ _ hend => @pure _ _ _ _ _ _ (Twins.ofNode hstart hend hparts)

lemma goTo {place place' : Place} (h : Abreast setting above place place') :
    Lockstep setting above (goTo place) (goTo place') :=
  ⟨fun _ => .some ⟨⟨rfl⟩, beside_after h⟩⟩

/-- Behind a place that is gone to, what was opened above that place counts. -/
lemma goToBind {other : Above} {place place' : Place} {f f' : Unit → TokenReader β} (hle : above ≤ other)
    (h : Abreast setting other place place') (hf : Lockstep setting other (f ()) (f' ())) :
    Lockstep setting above (TokenReader.goTo place >>= f) (TokenReader.goTo place' >>= f') :=
  ⟨fun _ => (hf.run (beside_after h)).anti hle⟩

/-- A parser that looks at the state. -/
lemma get {f f' : ReaderState → TokenReader α}
    (h : ∀ s s', Beside setting above s s' → Lockstep setting above (f s) (f' s')) :
    Lockstep setting above (MonadState.get >>= f) (MonadState.get >>= f') :=
  ⟨fun {s s'} hs => (h s s' hs).run hs⟩

/-- A parser that looks at the offset and at the state, from states that are known. -/
lemma offsetGet {f f' : Nat → ReaderState → TokenReader α} {s s' : ReaderState} (hs : Beside setting above s s')
    (h : ∀ start start', Twins setting start start' → Lockstep setting above (f start s) (f' start' s')) :
    BothParse setting above ((TokenReader.offset >>= fun start => MonadState.get >>= f start).run s)
      ((TokenReader.offset >>= fun start => MonadState.get >>= f' start).run s') :=
  (h _ _ ⟨hs.lo⟩).run hs

/-- Where punctuation was taken, the state in front of it is known. -/
lemma eatIf {p : Punct} {q q' r r' : TokenReader α}
    (hyes : ∀ s s', Beside setting above s s' → s.token = .punct p → BothParse setting above (q.run s.next) (q'.run s'.next))
    (hno : Lockstep setting above r r') :
    Lockstep setting above (TokenReader.eat p >>= fun b => if b then q else r)
      (TokenReader.eat p >>= fun b => if b then q' else r') where
  run {s s'} hs := by
    have hrun : ∀ {q r : TokenReader α} {s : ReaderState}, (TokenReader.eat p >>= fun b => if b then q else r).run s =
        if s.token == .punct p then q.run s.next else r.run s := by
      intro q r s
      change ((if s.token == .punct p then TokenReader.advance >>= fun _ => Pure.pure true else Pure.pure false) >>=
        fun b => if b then q else r).run s = _
      split_ifs <;> rfl
    rw [hrun, hrun, ← hs.token]
    split_ifs with htoken
    · exact hyes s s' hs (by simpa using htoken)
    · exact hno.run hs

/-- A parser that looks at the end of the last token and at the state. -/
lemma lastEndGet {f f' : Nat → ReaderState → TokenReader α}
    (h : ∀ s s', Beside setting above s s' → Lockstep setting above (f s.last.2 s) (f' s'.last.2 s')) :
    Lockstep setting above (TokenReader.lastEnd >>= fun start => MonadState.get >>= f start)
      (TokenReader.lastEnd >>= fun start => MonadState.get >>= f' start) :=
  ⟨fun {s s'} hs => (h s s' hs).run hs⟩

instance semicolon : Lockstep setting above semicolon semicolon := by
  unfold TokenReader.semicolon
  refine (eat .semicolon).bindPlain fun _ => ite pure (get fun s s' hs => ?_)
  rw [hs.token, hs.newline]
  exact require

instance eatSemicolon : Lockstep setting above eatSemicolon eatSemicolon :=
  (attempt semicolon).bindPlain fun _ => pure

lemma commaList {item item' : TokenReader α} (h : Lockstep setting above item item') (fuel : Nat) (close : Punct) :
    Lockstep setting above (commaList fuel close item) (commaList fuel close item') := by
  unfold TokenReader.commaList
  refine (collect ?_ fuel).bind fun items items' hitems => (expect close).bindPlain fun _ => pure
  refine (atPunct close).bindPlain fun closes => ite pure (h.bind fun a a' ha => ?_)
  refine (atPunct close).bindPlain fun closes => ?_
  exact ite ((expect .comma).bindPlain fun _ => pure) pure

instance {item item' : TokenReader α} [h : Lockstep setting above item item'] (fuel : Nat) (close : Punct) :
    Lockstep setting above (TokenReader.commaList fuel close item) (TokenReader.commaList fuel close item') :=
  h.commaList fuel close

/-! ### Angle brackets -/

lemma run_openAngle_of_cons {s : ReaderState} {rest : List Char} {offset : Nat} (h : s.here = ('<' :: rest, offset)) :
    openAngle.run s = some ((), .after (rest, offset + 1)) := by
  rw [openAngle, StateT.run_bind, StateT.run_get, Option.pure_def, Option.bind_eq_bind, Option.bind_some]
  simp only [h]
  rfl

lemma run_openAngle_of_ne {s : ReaderState} (h : s.here.1.head? ≠ some '<') : openAngle.run s = none := by
  rw [openAngle, StateT.run_bind, StateT.run_get, Option.pure_def, Option.bind_eq_bind, Option.bind_some]
  split
  · rename_i hhere
    exact absurd (by rw [hhere]; rfl) h
  · rfl

lemma run_closeAngle_of_cons {s : ReaderState} {rest : List Char} {offset : Nat} (h : s.here = ('>' :: rest, offset)) :
    closeAngle.run s = some ((), .after (rest, offset + 1)) := by
  rw [closeAngle, StateT.run_bind, StateT.run_get, Option.pure_def, Option.bind_eq_bind, Option.bind_some]
  simp only [h]
  rfl

lemma run_closeAngle_of_ne {s : ReaderState} (h : s.here.1.head? ≠ some '>') : closeAngle.run s = none := by
  rw [closeAngle, StateT.run_bind, StateT.run_get, Option.pure_def, Option.bind_eq_bind, Option.bind_some]
  split
  · rename_i hhere
    exact absurd (by rw [hhere]; rfl) h
  · rfl

/-- A character that is next is next in both readings. -/
lemma head?_eq_some_iff_exists {s s' : ReaderState} (hs : Beside setting above s s') {c : Char} (hc : c ≠ '\n')
    (h : s.here.1.head? = some c) : ∃ ahead rest rest', s.here = (c :: rest, s.here.2) ∧
      s'.here = (c :: rest', s'.here.2) ∧ Abreast setting (above.behind setting.markup c ahead)
        (rest, s.here.2 + c.utf8Size) (rest', s'.here.2 + c.utf8Size) := by
  rcases hs.here.cases with ⟨hplace, -⟩ | ⟨d, ahead, rest, rest', -, hplace, hplace', -, hbehind⟩
  · rw [hplace] at h
    cases h
  · obtain rfl : d = c := by
      rw [hplace] at h
      exact Option.some.inj h
    exact ⟨ahead, rest, rest', hplace, hplace', hbehind hc⟩

/-- Behind an opening angle bracket, where there is markup, some may have been opened. -/
lemma run_openAngle {s s' : ReaderState} (hs : Beside setting above s s') :
    Option.Rel (fun r r' => Beside setting { above with angle := above.angle || setting.markup } r.2 r'.2)
      (openAngle.run s) (openAngle.run s') := by
  by_cases h : s.here.1.head? = some '<'
  · obtain ⟨ahead, rest, rest', hplace, hplace', hbehind⟩ := head?_eq_some_iff_exists hs (by decide) h
    rw [run_openAngle_of_cons hplace, run_openAngle_of_cons hplace']
    refine .some (beside_after (hbehind.anti ⟨?_, ?_, ?_⟩))
    all_goals simp +contextual [Above.behind]
  · rw [run_openAngle_of_ne h, run_openAngle_of_ne (hs.here.head?_eq ▸ h)]
    exact .none

lemma openAngleBind {f f' : Unit → TokenReader β}
    (hf : Lockstep setting { above with angle := above.angle || setting.markup } (f ()) (f' ())) :
    Lockstep setting above (TokenReader.openAngle >>= f) (TokenReader.openAngle >>= f') where
  run {s s'} hs := by
    have hrun := run_openAngle hs
    rw [StateT.run_bind, StateT.run_bind]
    generalize TokenReader.openAngle.run s = found at hrun ⊢
    generalize TokenReader.openAngle.run s' = found' at hrun ⊢
    cases hrun with
    | none => exact .none
    | some h => exact (hf.run h).anti ⟨id, fun h => by simp [h], id⟩

instance openAngle : Lockstep setting above openAngle openAngle where
  run {s s'} hs := by
    have hrun := run_openAngle hs
    generalize TokenReader.openAngle.run s = found at hrun ⊢
    generalize TokenReader.openAngle.run s' = found' at hrun ⊢
    cases hrun with
    | none => exact .none
    | some h => exact .some ⟨Twins.refl _, h.anti ⟨id, fun h => by simp [h], id⟩⟩

instance closeAngle : Lockstep setting above closeAngle closeAngle where
  run {s s'} hs := by
    by_cases h : s.here.1.head? = some '>'
    · obtain ⟨ahead, rest, rest', hplace, hplace', hbehind⟩ := head?_eq_some_iff_exists hs (by decide) h
      rw [run_closeAngle_of_cons hplace, run_closeAngle_of_cons hplace']
      exact .some ⟨Twins.refl _, beside_after (hbehind.anti Above.le_behind)⟩
    · rw [run_closeAngle_of_ne h, run_closeAngle_of_ne (hs.here.head?_eq ▸ h)]
      exact .none

instance atAngle : Lockstep setting above atAngle atAngle :=
  get fun s s' hs => by
    rw [hs.here.head?_eq]
    exact pure

instance atCloseAngle : Lockstep setting above atCloseAngle atCloseAngle :=
  get fun s s' hs => by
    rw [hs.here.head?_eq]
    exact pure

/-! ### Constructs that contain themselves -/

section

variable {g : Grammar} {ctx : Context} [ctx.Fits setting] [hg : g.InLockstep setting]

instance parse {goal : Goal} [goal.Fits setting] : Lockstep setting above (g.parse goal ctx) (g.parse goal ctx) :=
  hg.parse goal ctx above

instance inner : Lockstep setting above (g.inner ctx) (g.inner ctx) := parse

instance innerAll : Lockstep setting above (g.innerAll ctx) (g.innerAll ctx) := parse

instance type : Lockstep setting above (g.type ctx) (g.type ctx) := parse

end

end Lockstep

end SpaMigration.Syntax
