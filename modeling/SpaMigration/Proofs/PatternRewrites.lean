import SpaMigration.Proofs.PatternMatches

/-!
# Texts before and after a replacement

`Rewritten` relates a text to the one that comes out of it when some stretches are swapped for others, with
what is known of the characters kept and of the stretches swapped. The replacement of the matches of a
pattern is such a rewriting, in which no match starts at a character kept.

A stretch of the new text comes from the old one, or reaches into a text put in, or starts within one
(`Rewritten.locate`).
-/
namespace SpaMigration

/-- The new text is the old one with some stretches swapped for others. `Kept` tells of a character that is
kept: what stands before it, and the old text from it on. `Swap` tells of a stretch that is swapped: the
character before it, the stretch, the text in its place, and the character after it, all but the third in
the old text. The first argument is the character before the old text. -/
inductive Rewritten (Kept : Option Char → List Char → Prop)
    (Swap : Option Char → List Char → List Char → Option Char → Prop) :
    Option Char → List Char → List Char → Prop
  | nil {before} : Rewritten Kept Swap before [] []
  | keep {before x s t} : Kept before (x :: s) → Rewritten Kept Swap (some x) s t →
    Rewritten Kept Swap before (x :: s) (x :: t)
  | swap {before old new s t} : Swap before old new s.head? → Rewritten Kept Swap (lastOr before old) s t →
    Rewritten Kept Swap before (old ++ s) (new ++ t)

/-- One of two texts begins with the other. -/
abbrev Agree (u v : List Char) : Prop := u <+: v ∨ v <+: u

lemma agree_of_append_eq {u v s t : List Char} (h : u ++ s = v ++ t) : Agree u v :=
  List.prefix_or_prefix_of_prefix (List.prefix_append u s) (h ▸ List.prefix_append v t)

lemma agree_of_append {u v w : List Char} (h : Agree (u ++ v) w) : Agree u w :=
  h.elim (fun h => .inl ((List.prefix_append u v).trans h)) fun h =>
    List.prefix_or_prefix_of_prefix (List.prefix_append u v) h

namespace Rewritten

variable {Kept Kept' : Option Char → List Char → Prop}
  {Swap Swap' : Option Char → List Char → List Char → Option Char → Prop}
  {before : Option Char} {s t : List Char}

/-- A text rewritten without any swap. -/
lemma refl (h : ∀ x y, s = x ++ y → Kept (lastOr before x) y) : Rewritten Kept Swap before s s := by
  induction s generalizing before with
  | nil => exact .nil
  | cons c s ih => exact .keep (h [] (c :: s) rfl) (ih fun x y hs => h (c :: x) y (congrArg (c :: ·) hs))

/-- What is known of every place of the old text is known of the characters kept. -/
lemma of_forall (h : Rewritten Kept Swap before s t) (hall : ∀ x y, s = x ++ y → Kept' (lastOr before x) y) :
    Rewritten Kept' Swap before s t := by
  induction h with
  | nil => exact .nil
  | @keep before x s t _ _ ih =>
    exact .keep (hall [] (x :: s) rfl) (ih fun u y hs => hall (x :: u) y (congrArg (x :: ·) hs))
  | @swap before old new s t hswap _ ih =>
    refine .swap hswap (ih fun u y hs => ?_)
    rw [← lastOr_append]
    exact hall (old ++ u) y (by rw [hs, List.append_assoc])

/-- Swaps may be described as rewritings of their own. -/
lemma refine (h : Rewritten Kept Swap before s t) (hkept : ∀ before y, Kept before y → Kept' before y)
    (hswap : ∀ {before old new s t}, Swap before old new s.head? →
      Rewritten Kept' Swap' (lastOr before old) s t → Rewritten Kept' Swap' before (old ++ s) (new ++ t)) :
    Rewritten Kept' Swap' before s t := by
  induction h with
  | nil => exact .nil
  | keep hkeep _ ih => exact .keep (hkept _ _ hkeep) ih
  | swap h _ ih => exact hswap h ih

lemma keepAll (hkept : ∀ before y, Kept before y) {u : List Char}
    (h : Rewritten Kept Swap (lastOr before u) s t) : Rewritten Kept Swap before (u ++ s) (u ++ t) := by
  induction u generalizing before with
  | nil => exact h
  | cons x u ih => exact .keep (hkept _ _) (ih h)

/-- The beginning of the new text is the beginning of the old one up to the first swap. -/
lemma prefix_cases (h : Rewritten Kept Swap before s t) {v y : List Char} (ht : t = v ++ y) :
    (∃ y', s = v ++ y') ∨ ∃ u v' old new s', v = u ++ v' ∧ v' ≠ [] ∧ s = u ++ old ++ s' ∧
      Swap (lastOr before u) old new s'.head? ∧ Agree v' new := by
  induction h generalizing v with
  | nil =>
    obtain ⟨rfl, -⟩ := List.append_eq_nil_iff.mp ht.symm
    exact .inl ⟨[], rfl⟩
  | @keep before x s t _ _ ih =>
    cases v with
    | nil => exact .inl ⟨x :: s, rfl⟩
    | cons x' v =>
      obtain ⟨rfl, rfl⟩ : x = x' ∧ t = v ++ y := by simpa using ht
      rcases ih rfl with ⟨y', rfl⟩ | ⟨u, v', old, new, s', rfl, hv', rfl, hswap, hagree⟩
      · exact .inl ⟨y', rfl⟩
      · exact .inr ⟨x :: u, v', old, new, s', rfl, hv', rfl, hswap, hagree⟩
  | @swap before old new s t hswap _ _ =>
    by_cases hv : v = []
    · exact .inl ⟨old ++ s, by rw [hv]; rfl⟩
    · exact .inr ⟨[], v, old, new, s, rfl, hv, rfl, hswap, agree_of_append_eq ht.symm⟩

/-- How the characters before a place in the two texts go together: they are the same, or the last ones of a
stretch swapped and of the text in its place. -/
def Linked (Swap : Option Char → List Char → List Char → Option Char → Prop) (next old new : Option Char) :
    Prop :=
  old = new ∨ ∃ before u v, Swap before u v next ∧ old = u.getLast? ∧ new = v.getLast?

/-- Where a stretch `w` of the new text comes from that stands behind the character `front`: it is kept from
the old text, or it starts with characters kept and goes on into a text put in, or it starts within such a
text. -/
inductive Origin (Kept : Option Char → List Char → Prop)
    (Swap : Option Char → List Char → List Char → Option Char → Prop) (before : Option Char)
    (s : List Char) (front : Option Char) (w : List Char) : Prop
  | kept (x y) (hs : s = x ++ (w ++ y)) (hkept : Kept (lastOr before x) (w ++ y))
    (hlinked : Linked Swap w.head? (lastOr before x) front)
  | into (x u v old new s') (hw : w = u ++ v) (hu : u ≠ []) (hv : v ≠ []) (hs : s = x ++ (u ++ old ++ s'))
    (hkept : Kept (lastOr before x) (u ++ old ++ s')) (hswap : Swap u.getLast? old new s'.head?)
    (hagree : Agree v new)
  | within (c old new after new') (hswap : Swap c old new after) (hnew : new' <:+ new) (hne : new' ≠ [])
    (hagree : Agree w new')

lemma Origin.prepend {front : Option Char} {w : List Char} (old : List Char)
    (h : Origin Kept Swap (lastOr before old) s front w) : Origin Kept Swap before (old ++ s) front w := by
  cases h with
  | kept x y hs hkept hlinked =>
    rw [← lastOr_append] at hkept hlinked
    exact .kept (old ++ x) y (by rw [hs, List.append_assoc]) hkept hlinked
  | into x u v o n s' hw hu hv hs hkept hswap hagree =>
    rw [← lastOr_append] at hkept
    exact .into (old ++ x) u v o n s' hw hu hv (by rw [hs, List.append_assoc old]) hkept hswap hagree
  | within c o n after n' hswap hnew hne hagree => exact .within c o n after n' hswap hnew hne hagree

/-- Every stretch of the new text has an origin. -/
theorem locate (h : Rewritten Kept Swap before s t)
    (hfull : ∀ {before old new after}, Swap before old new after → old ≠ [] ∧ new ≠ [])
    {before' : Option Char} (hbefore : Linked Swap s.head? before before') {x w y : List Char} (hw : w ≠ [])
    (ht : t = x ++ (w ++ y)) : Origin Kept Swap before s (lastOr before' x) w := by
  induction h generalizing x before' with
  | nil =>
    obtain ⟨-, hnil, -⟩ : x = [] ∧ w = [] ∧ y = [] := by simpa using ht.symm
    exact absurd hnil hw
  | @keep before c s t hkept hrest ih =>
    cases x with
    | nil =>
      obtain ⟨c', w, rfl⟩ := List.exists_cons_of_ne_nil hw
      obtain ⟨rfl, rfl⟩ : c = c' ∧ t = w ++ y := by simpa using ht
      rcases hrest.prefix_cases rfl with ⟨y', rfl⟩ | ⟨u, v, old, new, s', rfl, hv, rfl, hswap, hagree⟩
      · exact .kept [] y' rfl hkept hbefore
      · rw [← lastOr_cons before, lastOr_of_ne_nil before (List.cons_ne_nil c u)] at hswap
        exact .into [] (c :: u) v old new s' rfl (List.cons_ne_nil c u) hv rfl hkept hswap hagree
    | cons c' x =>
      obtain ⟨rfl, rfl⟩ : c = c' ∧ t = x ++ (w ++ y) := by simpa using ht
      exact (ih (.inl rfl) rfl).prepend [c]
  | @swap before old new s t hswap hrest ih =>
    obtain ⟨hold, hnew⟩ := hfull hswap
    have hlinked : Linked Swap s.head? (lastOr before old) (lastOr before' new) :=
      .inr ⟨before, old, new, hswap, lastOr_of_ne_nil _ hold, lastOr_of_ne_nil _ hnew⟩
    -- The stretch starts behind the text put in, or within it.
    rcases List.append_eq_append_iff.mp ht with ⟨x', rfl, hrest'⟩ | ⟨new', rfl, hrest'⟩
    · rw [lastOr_append]
      exact (ih hlinked hrest').prepend old
    · by_cases hnew' : new' = []
      · subst hnew'
        rw [List.append_nil] at hlinked
        exact (ih (x := []) hlinked hrest'.symm).prepend old
      · exact .within before old _ _ new' hswap (List.suffix_append x new') hnew' (agree_of_append_eq hrest')

end Rewritten

namespace Pattern

/-- Every match of the pattern takes at least one character. -/
def consumes : Pattern → Bool
  | .empty | .anchor _ => false
  | .set _ => true
  | .seq first second => first.consumes || second.consumes
  | .alt preferred other => preferred.consumes && other.consumes
  | .repeated body least _ _ => decide (0 < least) && body.consumes
  | .group _ body => body.consumes

lemma exists_rounds_of_matches_repeated {body : Pattern} {least : Nat} {most : Option Nat} {greedy : Bool}
    {before after : Option Char} {w : List Char} {groups : Groups}
    (h : (Pattern.repeated body least most greedy).Matches before w after groups) :
    ∃ n, least ≤ n ∧ Rounds body.Matches n before w after groups := by
  by_cases hset : ∃ chars, body = .set chars
  · obtain ⟨chars, rfl⟩ := hset
    obtain ⟨n, hleast, -, hrounds⟩ := h
    exact ⟨n, hleast, hrounds⟩
  · rw [matches_repeated fun chars h => hset ⟨chars, h⟩] at h
    obtain ⟨n, hleast, -, hrounds⟩ := h
    exact ⟨n, hleast, hrounds⟩

lemma ne_nil_of_matches {p : Pattern} (hp : p.consumes = true) {before after : Option Char} {w : List Char}
    {groups : Groups} (h : p.Matches before w after groups) : w ≠ [] := by
  induction p generalizing before w after groups with
  | empty => cases hp
  | anchor => cases hp
  | set chars =>
    obtain ⟨⟨x, rfl, -⟩, -⟩ := h
    exact List.cons_ne_nil x []
  | seq first second hfirst hsecond =>
    obtain ⟨u, v, gu, gv, rfl, -, hu, hv⟩ := h
    rcases Bool.or_eq_true_iff.mp hp with hp | hp
    · exact List.append_ne_nil_of_left_ne_nil (hfirst hp hu) v
    · exact List.append_ne_nil_of_right_ne_nil u (hsecond hp hv)
  | alt preferred other hpreferred hother =>
    obtain ⟨hp₁, hp₂⟩ := Bool.and_eq_true_iff.mp hp
    exact h.elim (hpreferred hp₁) (hother hp₂)
  | repeated body least most greedy hbody =>
    obtain ⟨hleast, hp⟩ := Bool.and_eq_true_iff.mp hp
    obtain ⟨n, hn, hrounds⟩ := exists_rounds_of_matches_repeated h
    cases n with
    | zero => exact absurd (of_decide_eq_true hleast) (by omega)
    | succ n =>
      obtain ⟨u, v, gu, gv, rfl, -, hu, -⟩ := hrounds
      exact List.append_ne_nil_of_left_ne_nil (hbody hp hu) v
  | group index body hbody =>
    obtain ⟨inner, -, hw⟩ := h
    exact hbody hp hw

/-- The pattern matches no stretch from a place on. -/
def Unmatched (p : Pattern) (before : Option Char) (s : List Char) : Prop :=
  ∀ w y groups, s = w ++ y → ¬ p.Matches before w y.head? groups

/-- A stretch is a match of the pattern, and the text in its place the replacement for it. -/
def Replaces (p : Pattern) (replacement : Match → List Char) (before : Option Char) (old new : List Char)
    (after : Option Char) : Prop :=
  ∃ m : Match, new = replacement m ∧ m.text = old ∧ p.Matches before old after m.groups

variable {p : Pattern} {replacement : Match → List Char}

lemma unmatched_of_matchAt?_eq_none {c : Cursor} (h : p.matchAt? c = none) : p.Unmatched c.before c.rest := by
  intro w y groups hrest hw
  have hsome := matchAt?_isSome_iff.mpr ⟨w, y, groups, hrest, hw⟩
  rw [h] at hsome
  cases hsome

lemma rewritten_of_findFrom?_eq_none {xs : List Char} {before : Option Char} {index : Nat}
    (h : p.findFrom? xs before index = none) :
    Rewritten p.Unmatched (p.Replaces replacement) before xs xs := by
  refine Rewritten.refl fun x y hxs w z groups hy hw => ?_
  have hsome : (p.findFrom? xs before index).isSome :=
    findFrom?_isSome_iff.mpr ⟨x, w, z, groups, by rw [hxs, hy, List.append_assoc], hw⟩
  rw [h] at hsome
  cases hsome

/-- What the search has found, with the text up to it. -/
def Finds (p : Pattern) (replacement : Match → List Char) (c : Cursor) (m : Match) : Prop :=
  ∃ u w, c.Reads u m.start ∧ m.start.Reads w m.stop ∧
    p.Matches m.start.before w m.stop.rest.head? m.groups ∧
    ∀ t, Rewritten p.Unmatched (p.Replaces replacement) m.stop.before m.stop.rest t →
      Rewritten p.Unmatched (p.Replaces replacement) c.before c.rest (u ++ (replacement m ++ t))

lemma finds_of_matchAt?_eq_some {c : Cursor} {m : Match} (h : p.matchAt? c = some m) :
    p.Finds replacement c m := by
  obtain ⟨rfl, w, hreads, hw⟩ := matchAt?_eq_some h
  refine ⟨[], w, .refl _, hreads, hw, fun t ht => ?_⟩
  rw [hreads.before] at ht
  rw [hreads.rest, List.nil_append]
  exact .swap ⟨m, rfl, hreads.textTo, hw⟩ ht

lemma finds_of_findFrom?_eq_some {xs : List Char} {before : Option Char} {index : Nat} {m : Match}
    (h : p.findFrom? xs before index = some m) : p.Finds replacement ⟨before, xs, index⟩ m := by
  induction xs generalizing before index with
  | nil => exact finds_of_matchAt?_eq_some h
  | cons x xs ih =>
    rcases Option.or_eq_some_iff.mp h with h | ⟨hnone, h⟩
    · exact finds_of_matchAt?_eq_some h
    · obtain ⟨u, w, hu, hw, hmatch, ht⟩ := ih h
      have hx : (⟨before, x :: xs, index⟩ : Cursor).Reads [x] ⟨some x, xs, index + 1⟩ := Cursor.reads_cons rfl
      exact ⟨x :: u, w, hx.trans hu, hw, hmatch, fun t hrest =>
        .keep (unmatched_of_matchAt?_eq_none hnone) (ht t hrest)⟩

lemma rewritten_spliceFrom (hp : p.consumes = true) (fuel : Nat) (c : Cursor) (lastEnd : Option Nat)
    (hfuel : c.rest.length < fuel) : Rewritten p.Unmatched (p.Replaces replacement) c.before c.rest
      (spliceFrom replacement c (p.matchesFrom fuel c lastEnd)) := by
  induction fuel generalizing c lastEnd with
  | zero => exact absurd hfuel (Nat.not_lt_zero _)
  | succ fuel ih =>
    cases hfind : p.findFrom? c.rest c.before c.index with
    | none =>
      simp only [matchesFrom, next?, hfind]
      exact rewritten_of_findFrom?_eq_none hfind
    | some m =>
      obtain ⟨u, w, hu, hw, hmatch, ht⟩ : p.Finds replacement c m := finds_of_findFrom?_eq_some hfind
      have hne : w ≠ [] := ne_nil_of_matches hp hmatch
      have hindex : ¬ m.start.index = m.stop.index := fun h => hne (hw.index_eq_iff.mp h.symm)
      simp only [matchesFrom, next?, hfind, hindex, false_and, if_false, spliceFrom]
      rw [hu.textTo, List.append_assoc]
      refine ht _ (ih m.stop _ ?_)
      have hlength : c.rest.length = u.length + (w.length + m.stop.rest.length) := by
        rw [hu.rest, hw.rest, List.length_append, List.length_append]
      have hpos : 0 < w.length := List.length_pos_iff.mpr hne
      omega

/-- The replacement of all matches rewrites them, and no match starts at a character kept. -/
theorem rewritten_replaceAll (hp : p.consumes = true) (replacement : Match → List Char) (text : List Char) :
    Rewritten p.Unmatched (p.Replaces replacement) none text (p.replaceAll replacement text) :=
  rewritten_spliceFrom hp _ (Cursor.start text) none (by simp only [Cursor.start]; omega)

end Pattern

end SpaMigration
