import Mathlib.Data.List.Basic
import Mathlib.Tactic.SplitIfs
import SpaMigration.Pattern.Match

/-!
# What a pattern matches

`Pattern.run` is a search with continuations. `Pattern.Matches` says what it searches for: the stretches of
text that a pattern matches between two neighbouring characters, with the texts of its groups. The search
finds nothing else, and it finds something wherever such a stretch stands; so a pattern occurs in a text
exactly when it matches a stretch of it.
-/
namespace SpaMigration

/-- The character before a position: the last one of the stretch before it, or the one before that. -/
def lastOr : Option Char → List Char → Option Char
  | before, [] => before
  | _, x :: xs => lastOr (some x) xs

/-- The character after a position: the first one of the stretch after it, or the one after that. -/
def headOr : List Char → Option Char → Option Char
  | [], after => after
  | x :: _, _ => some x

@[simp] lemma lastOr_nil (before : Option Char) : lastOr before [] = before := rfl

@[simp] lemma lastOr_cons (before : Option Char) (x : Char) (xs : List Char) :
    lastOr before (x :: xs) = lastOr (some x) xs := rfl

@[simp] lemma headOr_nil (after : Option Char) : headOr [] after = after := rfl

@[simp] lemma headOr_cons (x : Char) (xs : List Char) (after : Option Char) :
    headOr (x :: xs) after = some x := rfl

lemma lastOr_append (before : Option Char) (u v : List Char) :
    lastOr before (u ++ v) = lastOr (lastOr before u) v := by
  induction u generalizing before with
  | nil => rfl
  | cons x xs ih => exact ih (some x)

lemma lastOr_of_ne_nil (before : Option Char) {w : List Char} (h : w ≠ []) :
    lastOr before w = w.getLast? := by
  induction w generalizing before with
  | nil => exact absurd rfl h
  | cons x xs ih =>
    cases xs with
    | nil => rfl
    | cons y ys => rw [lastOr_cons, ih (some x) (List.cons_ne_nil y ys), List.getLast?_cons_cons]

lemma headOr_head? (w y : List Char) : headOr w y.head? = (w ++ y).head? := by
  cases w <;> rfl

namespace Cursor

/-- The stretch of text stands between two positions. -/
structure Reads (c : Cursor) (w : List Char) (d : Cursor) : Prop where
  rest : c.rest = w ++ d.rest
  before : d.before = lastOr c.before w
  index : d.index = c.index + w.length

variable {c d e : Cursor} {u v w : List Char}

lemma Reads.refl (c : Cursor) : c.Reads [] c := ⟨rfl, rfl, rfl⟩

lemma Reads.trans (hu : c.Reads u d) (hv : d.Reads v e) : c.Reads (u ++ v) e where
  rest := by rw [hu.rest, hv.rest, List.append_assoc]
  before := by rw [hv.before, hu.before, lastOr_append]
  index := by rw [hv.index, hu.index, List.length_append, Nat.add_assoc]

lemma Reads.unique (hd : c.Reads w d) (he : c.Reads w e) : d = e := by
  have hrest : d.rest = e.rest := List.append_cancel_left (hd.rest.symm.trans he.rest)
  have hbefore : d.before = e.before := hd.before.trans he.before.symm
  have hindex : d.index = e.index := hd.index.trans he.index.symm
  cases d
  cases e
  simp_all

lemma exists_reads {y : List Char} (h : c.rest = w ++ y) : ∃ d, c.Reads w d ∧ d.rest = y :=
  ⟨⟨lastOr c.before w, y, c.index + w.length⟩, ⟨h, rfl, rfl⟩, rfl⟩

lemma Reads.split (h : c.Reads (u ++ v) d) : ∃ e, c.Reads u e ∧ e.Reads v d := by
  have hrest : c.rest = u ++ (v ++ d.rest) := by rw [h.rest, List.append_assoc]
  obtain ⟨e, hu, he⟩ := exists_reads hrest
  refine ⟨e, hu, ⟨he, ?_, ?_⟩⟩
  · rw [h.before, lastOr_append, hu.before]
  · rw [h.index, hu.index, List.length_append, Nat.add_assoc]

lemma Reads.textTo (h : c.Reads w d) : c.textTo d = w := by
  simp [Cursor.textTo, h.rest, h.index]

lemma Reads.head? (h : c.Reads w d) : c.rest.head? = headOr w d.rest.head? := by
  rw [h.rest, headOr_head?]

lemma Reads.index_eq_iff (h : c.Reads w d) : d.index = c.index ↔ w = [] := by
  rw [h.index, Nat.add_eq_left, List.length_eq_zero_iff]

lemma reads_cons {x : Char} {xs : List Char} (h : c.rest = x :: xs) :
    c.Reads [x] ⟨some x, xs, c.index + 1⟩ := ⟨h, rfl, rfl⟩

end Cursor

namespace Anchor

/-- The condition holds between two characters. -/
def holdsBetween (position : Anchor) (before after : Option Char) : Bool :=
  position.holds ⟨before, after.toList, 0⟩

lemma holds_eq (position : Anchor) (c : Cursor) :
    position.holds c = position.holdsBetween c.before c.rest.head? := by
  obtain ⟨before, rest, index⟩ := c
  cases position <;> cases rest <;> rfl

end Anchor

namespace Pattern

/-- A relation between a stretch of text, its neighbours and the texts of groups. -/
abbrev Relation := Option Char → List Char → Option Char → Groups → Prop

/-- One stretch after another. -/
def Follows (R S : Relation) : Relation := fun before w after groups =>
  ∃ u v gu gv, w = u ++ v ∧ groups = gv ++ gu ∧ R before u (headOr v after) gu ∧
    S (lastOr before u) v after gv

/-- A number of stretches one after another. -/
def Rounds (R : Relation) : Nat → Relation
  | 0 => fun _ w _ groups => w = [] ∧ groups = []
  | n + 1 => Follows R (Rounds R n)

/-- The pattern matches a stretch of text between two neighbours, its groups with these texts. -/
def Matches : Pattern → Relation
  | .empty => fun _ w _ groups => w = [] ∧ groups = []
  | .set chars => fun _ w _ groups => (∃ x, w = [x] ∧ chars.contains x = true) ∧ groups = []
  | .anchor position => fun before w after groups =>
    w = [] ∧ groups = [] ∧ position.holdsBetween before after = true
  | .seq first second => Follows first.Matches second.Matches
  | .alt preferred other => fun before w after groups =>
    preferred.Matches before w after groups ∨ other.Matches before w after groups
  | .repeated (.set chars) least most _ => fun before w after groups =>
    ∃ n, least ≤ n ∧ (∀ limit ∈ most, n ≤ limit) ∧ Rounds (Pattern.set chars).Matches n before w after groups
  -- With a limit below the least number of rounds, only that number is tried.
  | .repeated body least most _ => fun before w after groups =>
    ∃ n, least ≤ n ∧ (∀ limit ∈ most, n ≤ max least limit) ∧ Rounds body.Matches n before w after groups
  | .group index body => fun before w after groups =>
    ∃ inner, groups = (index, w) :: inner ∧ body.Matches before w after inner

variable {β : Type} {R S N : Relation} {step next : Matcher β}

lemma follows_assoc (R S N : Relation) : Follows (Follows R S) N = Follows R (Follows S N) := by
  funext before w after groups
  apply propext
  constructor
  · rintro ⟨_, v, _, gv, rfl, rfl, ⟨u₁, u₂, g₁, g₂, rfl, rfl, h₁, h₂⟩, hv⟩
    refine ⟨u₁, u₂ ++ v, g₁, gv ++ g₂, by simp, by simp, ?_, u₂, v, g₂, gv, rfl, rfl, h₂, ?_⟩
    · cases u₂ <;> exact h₁
    · rwa [← lastOr_append]
  · rintro ⟨u, _, gu, _, rfl, rfl, hu, v₁, v₂, g₁, g₂, rfl, rfl, h₁, h₂⟩
    refine ⟨u ++ v₁, v₂, g₁ ++ gu, g₂, by simp, by simp, ⟨u, v₁, gu, g₁, rfl, rfl, ?_, h₁⟩, ?_⟩
    · cases v₁ <;> exact hu
    · rwa [lastOr_append]

lemma follows_rounds_zero (R S : Relation) : Follows (Rounds R 0) S = S := by
  funext before w after groups
  apply propext
  constructor
  · rintro ⟨_, v, _, gv, rfl, rfl, ⟨rfl, rfl⟩, hv⟩
    simpa using hv
  · intro h
    exact ⟨[], w, [], groups, rfl, by simp, ⟨rfl, rfl⟩, h⟩

lemma rounds_add (R : Relation) (n m : Nat) : Rounds R (n + m) = Follows (Rounds R n) (Rounds R m) := by
  induction n with
  | zero => rw [Nat.zero_add, follows_rounds_zero]
  | succ n ih => rw [Nat.succ_add, Rounds, Rounds, ih, follows_assoc]

/-- Rounds that match nothing can be left out. -/
lemma Rounds.exists_le_length {n : Nat} {before after : Option Char} {w : List Char} {groups : Groups}
    (h : Rounds R n before w after groups) :
    ∃ m ≤ w.length, ∃ fewer, Rounds R m before w after fewer := by
  induction n generalizing before w groups with
  | zero => exact ⟨0, Nat.zero_le _, groups, h⟩
  | succ n ih =>
    obtain ⟨u, v, gu, gv, rfl, rfl, hu, hv⟩ := h
    obtain ⟨m, hm, fewer, hrest⟩ := ih hv
    cases u with
    | nil => exact ⟨m, hm, fewer, hrest⟩
    | cons x xs =>
      refine ⟨m + 1, ?_, fewer ++ gu, x :: xs, v, gu, fewer, rfl, rfl, hu, hrest⟩
      simp only [List.length_append, List.length_cons]
      omega

/-- The matcher finds what the relation describes: only such stretches, and one wherever there are some. -/
structure Searches (step : Matcher β) (R : Relation) : Prop where
  sound : ∀ {c groups k r}, step c groups k = some r →
    ∃ w d new, c.Reads w d ∧ R c.before w d.rest.head? new ∧ k d (new ++ groups) = some r
  complete : ∀ {c w d new groups} {k : Continuation β}, c.Reads w d → R c.before w d.rest.head? new →
    (∀ groups', (k d groups').isSome) → (step c groups k).isSome

lemma Searches.skip : Searches (fun c groups (k : Continuation β) => k c groups) (Rounds R 0) where
  sound h := ⟨[], _, [], .refl _, ⟨rfl, rfl⟩, h⟩
  complete hreads h hk := by
    obtain ⟨rfl, -⟩ := h
    rw [hreads.unique (.refl _)] at hk
    exact hk _

lemma Searches.seq (hstep : Searches step R) (hnext : Searches next S) :
    Searches (fun c groups k => step c groups fun c' groups' => next c' groups' k) (Follows R S) where
  sound h := by
    obtain ⟨u, d, gu, hu, hR, h⟩ := hstep.sound h
    obtain ⟨v, e, gv, hv, hS, h⟩ := hnext.sound h
    rw [hv.head?] at hR
    rw [hu.before] at hS
    exact ⟨u ++ v, e, gv ++ gu, hu.trans hv, ⟨u, v, gu, gv, rfl, rfl, hR, hS⟩, by simpa using h⟩
  complete hreads h hk := by
    obtain ⟨u, v, gu, gv, rfl, rfl, hR, hS⟩ := h
    obtain ⟨e, hu, hv⟩ := hreads.split
    rw [← hv.head?] at hR
    rw [← hu.before] at hS
    exact hstep.complete hu hR fun groups' => hnext.complete hv hS hk

lemma Searches.alt (hstep : Searches step R) (hnext : Searches next S) :
    Searches (fun c groups k => (step c groups k).or (next c groups k))
      (fun before w after groups => R before w after groups ∨ S before w after groups) where
  sound h := by
    rcases Option.or_eq_some_iff.mp h with h | ⟨-, h⟩
    · obtain ⟨w, d, new, hreads, hR, h⟩ := hstep.sound h
      exact ⟨w, d, new, hreads, .inl hR, h⟩
    · obtain ⟨w, d, new, hreads, hS, h⟩ := hnext.sound h
      exact ⟨w, d, new, hreads, .inr hS, h⟩
  complete hreads h hk := by
    rw [Option.isSome_or, Bool.or_eq_true]
    exact h.imp (hstep.complete hreads · hk) (hnext.complete hreads · hk)

lemma Searches.exactly (hstep : Searches step R) (hnext : Searches next S) (n : Nat) :
    Searches (exactly step n next) (Follows (Rounds R n) S) := by
  induction n with
  | zero =>
    rw [follows_rounds_zero]
    exact hnext
  | succ n ih =>
    rw [Rounds, follows_assoc]
    exact hstep.seq ih

lemma Searches.upTo (hstep : Searches step R) (greedy : Bool) (n : Nat) :
    Searches (upTo step greedy n) (fun before w after groups => ∃ m ≤ n, Rounds R m before w after groups) where
  sound := by
    induction n with
    | zero =>
      intro c groups k r h
      obtain ⟨w, d, new, hreads, hrounds, h⟩ := Searches.skip.sound h
      exact ⟨w, d, new, hreads, ⟨0, Nat.le_refl 0, hrounds⟩, h⟩
    | succ n ih =>
      intro c groups k r h
      -- Either nothing more is matched here, or one round and then up to `n` others.
      have hcases : k c groups = some r ∨ step c groups (fun c' groups' =>
          if c'.index = c.index then k c' groups' else Pattern.upTo step greedy n c' groups' k) = some r := by
        cases greedy with
        | true => exact (Option.or_eq_some_iff.mp h).symm.imp And.right id
        | false => exact (Option.or_eq_some_iff.mp h).imp id And.right
      rcases hcases with h | h
      · exact ⟨[], c, [], .refl c, ⟨0, Nat.zero_le _, rfl, rfl⟩, h⟩
      · obtain ⟨u, d, gu, hu, hR, h⟩ := hstep.sound h
        split_ifs at h with hindex
        · refine ⟨u, d, gu, hu, ⟨1, Nat.le_add_left 1 n, u, [], gu, [], ?_⟩, h⟩
          exact ⟨by simp, by simp, hR, rfl, rfl⟩
        · obtain ⟨v, e, gv, hv, ⟨m, hm, hrounds⟩, h⟩ := ih h
          rw [hv.head?] at hR
          rw [hu.before] at hrounds
          refine ⟨u ++ v, e, gv ++ gu, hu.trans hv, ⟨m + 1, Nat.succ_le_succ hm, ?_⟩, by simpa using h⟩
          exact ⟨u, v, gu, gv, rfl, rfl, hR, hrounds⟩
  complete := by
    rintro c w d new groups k hreads ⟨m, hm, hrounds⟩ hk
    induction m generalizing n c w new groups with
    | zero =>
      obtain ⟨rfl, -⟩ := hrounds
      rw [hreads.unique (.refl c)] at hk
      cases n with
      | zero => exact hk groups
      | succ n => cases greedy <;> simp [Pattern.upTo, hk groups]
    | succ m ih =>
      obtain ⟨u, v, gu, gv, rfl, rfl, hR, hrounds⟩ := hrounds
      obtain ⟨e, hu, hv⟩ := hreads.split
      cases n with
      | zero => exact absurd hm (Nat.not_succ_le_zero m)
      | succ n =>
        by_cases hempty : u = []
        · -- A round that matches nothing is not needed.
          subst hempty
          exact ih (n + 1) hreads (Nat.le_of_succ_le hm) hrounds
        · have hround : (step c groups fun c' groups' =>
              if c'.index = c.index then k c' groups' else Pattern.upTo step greedy n c' groups' k).isSome := by
            rw [← hv.head?] at hR
            rw [← hu.before] at hrounds
            refine hstep.complete hu hR fun groups' => ?_
            rw [if_neg fun hindex => hempty (hu.index_eq_iff.mp hindex)]
            exact ih n hv (Nat.le_of_succ_le_succ hm) hrounds
          cases greedy <;> simp [Pattern.upTo, hround]

lemma rounds_set_iff {chars : CharSet} {n : Nat} {before after : Option Char} {w : List Char}
    {groups : Groups} : Rounds (Pattern.set chars).Matches n before w after groups ↔
      w.length = n ∧ (∀ x ∈ w, chars.contains x = true) ∧ groups = [] := by
  induction n generalizing before w groups with
  | zero =>
    constructor
    · rintro ⟨rfl, rfl⟩
      simp
    · rintro ⟨hlength, -, rfl⟩
      exact ⟨List.length_eq_zero_iff.mp hlength, rfl⟩
  | succ n ih =>
    constructor
    · rintro ⟨_, v, _, gv, rfl, rfl, ⟨⟨x, rfl, hx⟩, rfl⟩, hv⟩
      obtain ⟨hlength, hall, rfl⟩ := ih.mp hv
      exact ⟨by simp [hlength], List.forall_mem_cons.mpr ⟨hx, hall⟩, rfl⟩
    · rintro ⟨hlength, hall, rfl⟩
      cases w with
      | nil => simp at hlength
      | cons x xs =>
        obtain ⟨hx, hxs⟩ := List.forall_mem_cons.mp hall
        refine ⟨[x], xs, [], [], rfl, rfl, ⟨⟨x, rfl, hx⟩, rfl⟩, ih.mpr ⟨?_, hxs, rfl⟩⟩
        simpa using hlength

lemma mem_advances_iff {chars : CharSet} {xs : List Char} {limit : Option Nat} {before : Option Char}
    {index : Nat} {found : List Cursor} {d : Cursor} :
    d ∈ advances chars xs limit before index found ↔ d ∈ found ∨ ∃ w, (⟨before, xs, index⟩ : Cursor).Reads w d ∧
      (∀ x ∈ w, chars.contains x = true) ∧ ∀ most ∈ limit, w.length ≤ most := by
  induction xs generalizing limit before index found with
  | nil =>
    rw [advances, List.mem_cons, or_comm]
    refine or_congr_right ⟨?_, ?_⟩
    · rintro rfl
      exact ⟨[], .refl _, by simp, by simp⟩
    · rintro ⟨w, hreads, -, -⟩
      obtain ⟨rfl, -⟩ := List.append_eq_nil_iff.mp hreads.rest.symm
      exact hreads.unique (.refl _)
  | cons x xs ih =>
    have hhere : (⟨before, x :: xs, index⟩ : Cursor).Reads [] ⟨before, x :: xs, index⟩ := .refl _
    have hfirst : (⟨before, x :: xs, index⟩ : Cursor).Reads [x] ⟨some x, xs, index + 1⟩ :=
      Cursor.reads_cons rfl
    simp only [advances]
    split_ifs with hmore
    · simp only [Bool.and_eq_true, bne_iff_ne, ne_eq] at hmore
      rw [ih, List.mem_cons, or_comm (a := d = _), or_assoc]
      refine or_congr_right ⟨?_, ?_⟩
      · rintro (rfl | ⟨w, hreads, hall, hlimit⟩)
        · exact ⟨[], hhere, by simp, by simp⟩
        · refine ⟨x :: w, hfirst.trans hreads, List.forall_mem_cons.mpr ⟨hmore.2, hall⟩, ?_⟩
          rintro most rfl
          have hw := hlimit (most - 1) (by simp)
          have hpos : most ≠ 0 := fun h => hmore.1 (congrArg some h)
          simp only [List.length_cons]
          omega
      · rintro ⟨w, hreads, hall, hlimit⟩
        cases w with
        | nil => exact .inl (hreads.unique hhere)
        | cons y w =>
          obtain ⟨rfl, -⟩ : y = x ∧ w ++ d.rest = xs := by simpa [eq_comm] using hreads.rest
          obtain ⟨e, hy, hw⟩ := Cursor.Reads.split (u := [y]) hreads
          rw [hy.unique hfirst] at hw
          refine .inr ⟨w, hw, fun z hz => hall z (List.mem_cons_of_mem y hz), ?_⟩
          rintro _ hmost
          obtain ⟨most, hmem, rfl⟩ := Option.map_eq_some_iff.mp hmost
          have := hlimit most hmem
          simp only [List.length_cons] at this
          omega
    · rw [List.mem_cons, or_comm]
      refine or_congr_right ⟨?_, ?_⟩
      · rintro rfl
        exact ⟨[], hhere, by simp, by simp⟩
      · rintro ⟨w, hreads, hall, hlimit⟩
        cases w with
        | nil => exact hreads.unique hhere
        | cons y w =>
          obtain ⟨rfl, -⟩ : y = x ∧ w ++ d.rest = xs := by simpa [eq_comm] using hreads.rest
          have hy := hall y List.mem_cons_self
          have hzero : limit ≠ some 0 := fun h => absurd (hlimit 0 h) (by simp)
          simp [hy, hzero] at hmore

/-- The furthest position comes first. -/
lemma pairwise_advances {chars : CharSet} {xs : List Char} {limit : Option Nat} {before : Option Char}
    {index : Nat} {found : List Cursor} (hfound : found.Pairwise fun a b => b.index < a.index)
    (hindex : ∀ d ∈ found, d.index < index) :
    (advances chars xs limit before index found).Pairwise fun a b => b.index < a.index := by
  induction xs generalizing limit before index found with
  | nil => exact List.pairwise_cons.mpr ⟨hindex, hfound⟩
  | cons x xs ih =>
    have hhere := List.pairwise_cons (a := ⟨before, x :: xs, index⟩).mpr ⟨hindex, hfound⟩
    simp only [advances]
    split_ifs
    · refine ih hhere fun d hd => ?_
      rcases List.mem_cons.mp hd with rfl | hd
      · exact Nat.lt_succ_self index
      · exact Nat.lt_succ_of_lt (hindex d hd)
    · exact hhere

lemma mem_takeWhile_index_iff {found : List Cursor} (h : found.Pairwise fun a b => b.index < a.index)
    {bound : Nat} {d : Cursor} :
    d ∈ found.takeWhile (fun c => decide (bound ≤ c.index)) ↔ d ∈ found ∧ bound ≤ d.index := by
  induction found with
  | nil => simp
  | cons c rest ih =>
    obtain ⟨hc, hrest⟩ := List.pairwise_cons.mp h
    by_cases hbound : bound ≤ c.index
    · rw [List.takeWhile_cons_of_pos (by simpa using hbound), List.mem_cons, List.mem_cons, ih hrest,
        or_and_right]
      refine or_congr_left ⟨?_, And.left⟩
      rintro rfl
      exact ⟨rfl, hbound⟩
    · rw [List.takeWhile_cons_of_neg (by simpa using hbound)]
      refine iff_of_false List.not_mem_nil ?_
      rintro ⟨hd, hdbound⟩
      rcases List.mem_cons.mp hd with rfl | hd
      · exact hbound hdbound
      · have := hc d hd
        omega

lemma firstOf_eq_some {groups : Groups} {k : Continuation β} {cs : List Cursor} {r : β}
    (h : firstOf groups k cs = some r) : ∃ c ∈ cs, k c groups = some r := by
  induction cs with
  | nil => cases h
  | cons c cs ih =>
    rcases Option.or_eq_some_iff.mp h with h | ⟨-, h⟩
    · exact ⟨c, List.mem_cons_self, h⟩
    · obtain ⟨d, hd, h⟩ := ih h
      exact ⟨d, List.mem_cons_of_mem c hd, h⟩

lemma firstOf_isSome {groups : Groups} {k : Continuation β} {cs : List Cursor} {c : Cursor} (hc : c ∈ cs)
    (h : (k c groups).isSome) : (firstOf groups k cs).isSome := by
  induction cs with
  | nil => cases hc
  | cons d cs ih =>
    rw [firstOf, Option.isSome_or, Bool.or_eq_true]
    rcases List.mem_cons.mp hc with rfl | hc
    · exact .inl h
    · exact .inr (ih hc)

/-- The positions that a repetition of a set tries, in their order. -/
def setStops (chars : CharSet) (least : Nat) (most : Option Nat) (greedy : Bool) (c : Cursor) :
    List Cursor :=
  let enough := (advances chars c.rest most c.before c.index []).takeWhile
    fun d => decide (c.index + least ≤ d.index)
  if greedy then enough else enough.reverse

lemma mem_setStops_iff {chars : CharSet} {least : Nat} {most : Option Nat} {greedy : Bool} {c d : Cursor} :
    d ∈ setStops chars least most greedy c ↔ ∃ w, c.Reads w d ∧ least ≤ w.length ∧
      (∀ limit ∈ most, w.length ≤ limit) ∧ ∀ x ∈ w, chars.contains x = true := by
  have hsorted : (advances chars c.rest most c.before c.index []).Pairwise fun a b => b.index < a.index :=
    pairwise_advances .nil (by simp)
  have horder : ∀ l : List Cursor, (d ∈ if greedy then l else l.reverse) ↔ d ∈ l := by
    intro l
    cases greedy <;> simp
  rw [setStops, horder, mem_takeWhile_index_iff hsorted, mem_advances_iff]
  constructor
  · rintro ⟨hfound | ⟨w, hreads, hall, hlimit⟩, hleast⟩
    · cases hfound
    · rw [hreads.index] at hleast
      exact ⟨w, hreads, Nat.le_of_add_le_add_left hleast, hlimit, hall⟩
  · rintro ⟨w, hreads, hleast, hlimit, hall⟩
    rw [hreads.index]
    exact ⟨.inr ⟨w, hreads, hall, hlimit⟩, Nat.add_le_add_left hleast _⟩

lemma searches_runSet (chars : CharSet) (least : Nat) (most : Option Nat) (greedy : Bool) :
    Searches (β := β) (runSet chars least most greedy)
      (Pattern.repeated (.set chars) least most greedy).Matches where
  sound {c groups k r} h := by
    change firstOf groups k (setStops chars least most greedy c) = some r at h
    obtain ⟨d, hd, h⟩ := firstOf_eq_some h
    obtain ⟨w, hreads, hleast, hlimit, hall⟩ := mem_setStops_iff.mp hd
    exact ⟨w, d, [], hreads, ⟨w.length, hleast, hlimit, rounds_set_iff.mpr ⟨rfl, hall, rfl⟩⟩, h⟩
  complete {c w d new groups k} hreads h hk := by
    obtain ⟨n, hleast, hlimit, hrounds⟩ := h
    obtain ⟨rfl, hall, rfl⟩ := rounds_set_iff.mp hrounds
    have hd : d ∈ setStops chars least most greedy c := mem_setStops_iff.mpr ⟨w, hreads, hleast, hlimit, hall⟩
    exact firstOf_isSome hd (hk groups)

lemma matches_repeated {body : Pattern} (hbody : ∀ chars, body ≠ .set chars) (least : Nat)
    (most : Option Nat) (greedy : Bool) : (Pattern.repeated body least most greedy).Matches =
      fun before w after groups => ∃ n, least ≤ n ∧ (∀ limit ∈ most, n ≤ max least limit) ∧
        Rounds body.Matches n before w after groups := by
  cases body with
  | set chars => exact absurd rfl (hbody chars)
  | _ => rfl

lemma searches_repeated {body : Pattern} (hbody : ∀ chars, body ≠ .set chars)
    (h : Searches (β := β) body.run body.Matches) (least : Nat) (most : Option Nat) (greedy : Bool) :
    Searches (β := β) (Pattern.repeated body least most greedy).run
      (Pattern.repeated body least most greedy).Matches := by
  rw [matches_repeated hbody]
  have hrun : ∀ c groups (k : Continuation β), (Pattern.repeated body least most greedy).run c groups k =
      exactly body.run least (upTo body.run greedy
        (most.elim (c.rest.length + 1) (· - least))) c groups k := by
    intro c groups k
    cases body with
    | set chars => exact absurd rfl (hbody chars)
    | _ => cases most <;> rfl
  constructor
  · intro c groups k r hsome
    rw [hrun] at hsome
    obtain ⟨w, d, new, hreads, hfollows, hk⟩ := (h.exactly (h.upTo greedy _) least).sound hsome
    obtain ⟨u, v, gu, gv, rfl, rfl, hu, m, hm, hv⟩ := hfollows
    refine ⟨u ++ v, d, gv ++ gu, hreads, ⟨least + m, Nat.le_add_right _ _, ?_, ?_⟩, hk⟩
    · rintro limit rfl
      rw [Option.elim_some] at hm
      omega
    · rw [rounds_add]
      exact ⟨u, v, gu, gv, rfl, rfl, hu, hv⟩
  · rintro c w d new groups k hreads ⟨n, hleast, hlimit, hrounds⟩ hk
    rw [hrun]
    obtain ⟨m, rfl⟩ := Nat.exists_eq_add_of_le hleast
    rw [rounds_add] at hrounds
    obtain ⟨u, v, gu, gv, rfl, rfl, hu, hv⟩ := hrounds
    cases most with
    | some limit =>
      have hm : m ≤ limit - least := by
        have := hlimit limit rfl
        omega
      exact (h.exactly (h.upTo greedy _) least).complete hreads ⟨u, v, gu, gv, rfl, rfl, hu, m, hm, hv⟩ hk
    | none =>
      -- No more rounds are needed than there are characters.
      obtain ⟨m', hm', fewer, hv'⟩ := hv.exists_le_length
      have hlength : m' ≤ c.rest.length + 1 := by
        rw [hreads.rest]
        simp only [List.length_append]
        omega
      exact (h.exactly (h.upTo greedy _) least).complete hreads
        ⟨u, v, gu, fewer, rfl, rfl, hu, m', hlength, hv'⟩ hk

/-- The search for a pattern finds what the pattern matches. -/
theorem searches_run (p : Pattern) : Searches (β := β) p.run p.Matches := by
  induction p with
  | empty => exact Searches.skip (R := fun _ _ _ _ => True)
  | set chars =>
    constructor
    · intro c groups k r h
      simp only [run] at h
      split at h
      · cases h
      · next x xs hrest =>
        split_ifs at h with hx
        exact ⟨[x], _, [], Cursor.reads_cons hrest, ⟨⟨x, rfl, hx⟩, rfl⟩, h⟩
    · rintro c _ d new groups k hreads ⟨⟨x, rfl, hx⟩, -⟩ hk
      have hrest : c.rest = x :: d.rest := hreads.rest
      rw [hreads.unique (Cursor.reads_cons hrest)] at hk
      simp only [run, hrest, hx, if_true]
      exact hk groups
  | anchor position =>
    constructor
    · intro c groups k r h
      simp only [run] at h
      split_ifs at h with hposition
      rw [Anchor.holds_eq] at hposition
      exact ⟨[], c, [], .refl c, ⟨rfl, rfl, hposition⟩, h⟩
    · rintro c _ d new groups k hreads ⟨rfl, -, hposition⟩ hk
      obtain rfl := hreads.unique (.refl c)
      rw [← Anchor.holds_eq] at hposition
      simp only [run, hposition, if_true]
      exact hk groups
  | seq first second hfirst hsecond => exact hfirst.seq hsecond
  | alt preferred other hpreferred hother => exact hpreferred.alt hother
  | repeated body least most greedy hbody =>
    by_cases hset : ∃ chars, body = .set chars
    · obtain ⟨chars, rfl⟩ := hset
      exact searches_runSet chars least most greedy
    · exact searches_repeated (fun chars h => hset ⟨chars, h⟩) hbody least most greedy
  | group index body hbody =>
    constructor
    · intro c groups k r h
      obtain ⟨w, d, inner, hreads, hw, h⟩ := hbody.sound h
      rw [hreads.textTo] at h
      exact ⟨w, d, (index, w) :: inner, hreads, ⟨inner, rfl, hw⟩, h⟩
    · rintro c w d _ groups k hreads ⟨inner, rfl, hw⟩ hk
      exact hbody.complete hreads hw fun groups' => hk _

variable {p : Pattern} {c : Cursor}

/-- What a match at a position is. -/
theorem matchAt?_eq_some {m : Match} (h : p.matchAt? c = some m) :
    m.start = c ∧ ∃ w, c.Reads w m.stop ∧ p.Matches c.before w m.stop.rest.head? m.groups := by
  obtain ⟨w, d, new, hreads, hw, h⟩ := (searches_run p).sound h
  cases h
  exact ⟨rfl, w, hreads, by simpa using hw⟩

/-- A match starts at a position exactly when the pattern matches a stretch from there. -/
theorem matchAt?_isSome_iff : (p.matchAt? c).isSome ↔
    ∃ w y groups, c.rest = w ++ y ∧ p.Matches c.before w y.head? groups := by
  constructor
  · intro h
    obtain ⟨m, hm⟩ := Option.isSome_iff_exists.mp h
    obtain ⟨-, w, hreads, hw⟩ := matchAt?_eq_some hm
    exact ⟨w, _, _, hreads.rest, hw⟩
  · rintro ⟨w, y, groups, hrest, hw⟩
    obtain ⟨d, hreads, rfl⟩ := Cursor.exists_reads hrest
    exact (searches_run p).complete hreads hw fun _ => rfl

lemma findFrom?_isSome_iff {xs : List Char} {before : Option Char} {index : Nat} :
    (p.findFrom? xs before index).isSome ↔ ∃ x w y groups, xs = x ++ w ++ y ∧
      p.Matches (lastOr before x) w y.head? groups := by
  induction xs generalizing before index with
  | nil =>
    rw [findFrom?, matchAt?_isSome_iff]
    constructor
    · rintro ⟨w, y, groups, hxs, hw⟩
      exact ⟨[], w, y, groups, hxs, hw⟩
    · rintro ⟨x, w, y, groups, hxs, hw⟩
      obtain ⟨rfl, rfl, rfl⟩ : x = [] ∧ w = [] ∧ y = [] := by simpa using hxs.symm
      exact ⟨[], [], groups, rfl, hw⟩
  | cons z zs ih =>
    rw [findFrom?, Option.isSome_or, Bool.or_eq_true, matchAt?_isSome_iff, ih]
    constructor
    · rintro (⟨w, y, groups, hxs, hw⟩ | ⟨x, w, y, groups, rfl, hw⟩)
      · exact ⟨[], w, y, groups, hxs, hw⟩
      · exact ⟨z :: x, w, y, groups, rfl, hw⟩
    · rintro ⟨x, w, y, groups, hxs, hw⟩
      cases x with
      | nil => exact .inl ⟨w, y, groups, hxs, hw⟩
      | cons z' x =>
        obtain ⟨rfl, rfl⟩ : z = z' ∧ zs = x ++ w ++ y := by simpa using hxs
        exact .inr ⟨x, w, y, groups, rfl, hw⟩

/-- A pattern occurs in a text exactly when it matches a stretch of it. -/
theorem occursIn_iff {text : List Char} : p.occursIn text = true ↔
    ∃ x w y groups, text = x ++ w ++ y ∧ p.Matches (lastOr none x) w y.head? groups :=
  findFrom?_isSome_iff

end Pattern

end SpaMigration
