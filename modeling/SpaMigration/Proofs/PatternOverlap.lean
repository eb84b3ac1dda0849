import Mathlib.Data.List.Infix
import SpaMigration.Proofs.PatternRewrites

/-!
# Patterns that keep clear of a text

Whether a match of a pattern can overlap with a text that a replacement puts in is decided from the pattern
alone. `residuals` are what remains of a pattern after a character, `states` what may remain of it anywhere
inside a match; a pattern avoids a text when neither the text can go on from such a state nor a match can
start within the text. A pattern that avoids every text put in does not occur in the new text, if it matches
nowhere among the characters kept.
-/
namespace SpaMigration

namespace CharSet

/-- The set may hold a character with the property. -/
def mayHold (P : Char → Bool) : CharSet → Bool
  | .none => false
  | .range lo hi => lo != hi || P lo
  | .union a b => a.mayHold P || b.mayHold P
  | _ => true

/-- The set is seen to hold no characters but such with the property. -/
def isWithin (P : Char → Bool) : CharSet → Bool
  | .none => true
  | .range lo hi => lo == hi && P lo
  | .union a b => a.isWithin P && b.isWithin P
  | _ => false

variable {P : Char → Bool} {set : CharSet} {x : Char}

lemma eq_of_mem_range {c : Char} (h : (CharSet.range c c).contains x = true) : x = c := by
  simp only [contains, Bool.and_eq_true, decide_eq_true_eq] at h
  exact Char.le_antisymm h.2 h.1

lemma mayHold_of_contains (hset : set.contains x = true) (hx : P x = true) : set.mayHold P = true := by
  induction set with
  | none => cases hset
  | range lo hi =>
    rw [mayHold, Bool.or_eq_true, bne_iff_ne, ne_eq]
    by_cases heq : lo = hi
    · subst heq
      rw [eq_of_mem_range hset] at hx
      exact .inr hx
    · exact .inl heq
  | union a b ha hb =>
    rw [mayHold, Bool.or_eq_true]
    exact (Bool.or_eq_true_iff.mp hset).imp ha hb
  | _ => rfl

lemma of_isWithin (h : set.isWithin P = true) (hset : set.contains x = true) : P x = true := by
  induction set with
  | none => cases hset
  | range lo hi =>
    obtain ⟨heq, hP⟩ := Bool.and_eq_true_iff.mp h
    obtain rfl := beq_iff_eq.mp heq
    rwa [eq_of_mem_range hset]
  | union a b ha hb =>
    obtain ⟨h₁, h₂⟩ := Bool.and_eq_true_iff.mp h
    exact (Bool.or_eq_true_iff.mp hset).elim (ha h₁) (hb h₂)
  | _ => cases h

end CharSet

namespace Pattern

/-- The pattern allows the text, whatever stands around it and however many rounds its repetitions take. -/
def Accepts : Pattern → List Char → Prop
  | .empty, w => w = []
  | .anchor _, w => w = []
  | .set chars, w => ∃ x, w = [x] ∧ chars.contains x = true
  | .seq first second, w => ∃ u v, w = u ++ v ∧ first.Accepts u ∧ second.Accepts v
  | .alt preferred other, w => preferred.Accepts w ∨ other.Accepts w
  | .repeated body _ _ _, w => ∃ rounds : List (List Char), w = rounds.flatten ∧ ∀ u ∈ rounds, body.Accepts u
  | .group _ body, w => body.Accepts w

variable {p q : Pattern} {before after : Option Char} {u v w : List Char} {groups : Groups} {x : Char}

lemma exists_flatten_of_rounds {R : Relation} {n : Nat} (h : Rounds R n before w after groups)
    (hR : ∀ {before w after groups}, R before w after groups → p.Accepts w) :
    ∃ rounds : List (List Char), w = rounds.flatten ∧ ∀ u ∈ rounds, p.Accepts u := by
  induction n generalizing before w groups with
  | zero => exact ⟨[], h.1, by simp⟩
  | succ n ih =>
    obtain ⟨u, v, gu, gv, rfl, -, hu, hv⟩ := h
    obtain ⟨rounds, rfl, hrounds⟩ := ih hv
    exact ⟨u :: rounds, rfl, List.forall_mem_cons.mpr ⟨hR hu, hrounds⟩⟩

lemma accepts_of_matches (h : p.Matches before w after groups) : p.Accepts w := by
  induction p generalizing before w after groups with
  | empty => exact h.1
  | anchor position => exact h.1
  | set chars => exact h.1
  | seq first second hfirst hsecond =>
    obtain ⟨u, v, gu, gv, hw, -, hu, hv⟩ := h
    exact ⟨u, v, hw, hfirst hu, hsecond hv⟩
  | alt preferred other hpreferred hother => exact h.imp hpreferred hother
  | repeated body least most greedy hbody =>
    obtain ⟨n, -, hrounds⟩ := exists_rounds_of_matches_repeated h
    exact exists_flatten_of_rounds hrounds hbody
  | group index body hbody =>
    obtain ⟨inner, -, hw⟩ := h
    exact hbody hw

/-- The pattern may match without taking a character. -/
def skippable : Pattern → Bool
  | .empty | .anchor _ | .repeated .. => true
  | .set _ => false
  | .seq first second => first.skippable && second.skippable
  | .alt preferred other => preferred.skippable || other.skippable
  | .group _ body => body.skippable

lemma skippable_of_accepts_nil (h : p.Accepts []) : p.skippable = true := by
  induction p with
  | set chars =>
    obtain ⟨x, hx, -⟩ := h
    cases hx
  | seq first second hfirst hsecond =>
    obtain ⟨u, v, hnil, hu, hv⟩ := h
    obtain ⟨rfl, rfl⟩ := List.append_eq_nil_iff.mp hnil.symm
    exact Bool.and_eq_true_iff.mpr ⟨hfirst hu, hsecond hv⟩
  | alt preferred other hpreferred hother => exact Bool.or_eq_true_iff.mpr (h.imp hpreferred hother)
  | group index body hbody => exact hbody h
  | _ => rfl

/-- What may remain of the pattern after a first character. -/
def residuals (x : Char) : Pattern → List Pattern
  | .empty | .anchor _ => []
  | .set chars => if chars.contains x then [.empty] else []
  | .seq first second =>
    (first.residuals x).map (.seq · second) ++ if first.skippable then second.residuals x else []
  | .alt preferred other => preferred.residuals x ++ other.residuals x
  | .repeated body least most greedy => (body.residuals x).map (.seq · (.repeated body least most greedy))
  | .group _ body => body.residuals x

lemma exists_mem_residuals (h : p.Accepts (x :: v)) : ∃ r ∈ p.residuals x, r.Accepts v := by
  induction p generalizing v with
  | empty => cases h
  | anchor => cases h
  | set chars =>
    obtain ⟨y, hy, hchars⟩ := h
    cases hy
    exact ⟨.empty, by simp [residuals, hchars], rfl⟩
  | seq first second hfirst hsecond =>
    obtain ⟨s, t, hst, hs, ht⟩ := h
    cases s with
    | nil =>
      obtain ⟨r, hr, hv⟩ := hsecond (v := v) (by simpa [hst] using ht)
      exact ⟨r, by simp [residuals, skippable_of_accepts_nil hs, hr], hv⟩
    | cons y s =>
      obtain ⟨rfl, rfl⟩ : x = y ∧ v = s ++ t := by simpa using hst
      obtain ⟨r, hr, hv⟩ := hfirst hs
      exact ⟨.seq r second, List.mem_append_left _ (List.mem_map_of_mem hr), s, t, rfl, hv, ht⟩
  | alt preferred other hpreferred hother =>
    rcases h with h | h
    · obtain ⟨r, hr, hv⟩ := hpreferred h
      exact ⟨r, List.mem_append_left _ hr, hv⟩
    · obtain ⟨r, hr, hv⟩ := hother h
      exact ⟨r, List.mem_append_right _ hr, hv⟩
  | repeated body least most greedy hbody =>
    obtain ⟨rounds, hw, hrounds⟩ := h
    induction rounds with
    | nil => cases hw
    | cons s rounds ih =>
      obtain ⟨hs, hrest⟩ := List.forall_mem_cons.mp hrounds
      cases s with
      | nil => exact ih hw hrest
      | cons y s =>
        obtain ⟨rfl, rfl⟩ : x = y ∧ v = s ++ rounds.flatten := by simpa using hw
        obtain ⟨r, hr, hv⟩ := hbody hs
        exact ⟨_, List.mem_map_of_mem hr, s, rounds.flatten, rfl, hv, rounds, rfl, hrest⟩
  | group index body hbody => exact hbody h

/-- What may remain of the pattern inside a match, after a character with the property. -/
def states (P : Char → Bool) : Pattern → List Pattern
  | .empty | .anchor _ => []
  | .set chars => if chars.mayHold P then [.empty] else []
  | .seq first second => (first.states P).map (.seq · second) ++ second.states P
  | .alt preferred other => preferred.states P ++ other.states P
  | .repeated body least most greedy => (body.states P).map (.seq · (.repeated body least most greedy))
  | .group _ body => body.states P

lemma exists_mem_states {P : Char → Bool} (hx : P x = true) (h : p.Accepts (u ++ x :: v)) :
    ∃ r ∈ p.states P, r.Accepts v := by
  induction p generalizing u v with
  | empty => simp [Accepts] at h
  | anchor => simp [Accepts] at h
  | set chars =>
    obtain ⟨y, hy, hchars⟩ := h
    obtain ⟨rfl, hv⟩ : u = [] ∧ x :: v = [y] := by
      cases u with
      | nil => exact ⟨rfl, hy⟩
      | cons z u => simp at hy
    obtain ⟨rfl, rfl⟩ : x = y ∧ v = [] := by simpa using hv
    exact ⟨.empty, by simp [states, CharSet.mayHold_of_contains hchars hx], rfl⟩
  | seq first second hfirst hsecond =>
    obtain ⟨s, t, hst, hs, ht⟩ := h
    -- The character belongs to the second part or to the first one.
    rcases List.append_eq_append_iff.mp hst with ⟨u', rfl, hsplit⟩ | ⟨u', rfl, hsplit⟩
    · cases u' with
      | nil =>
        obtain rfl : x :: v = t := hsplit
        obtain ⟨r, hr, hv⟩ := hsecond (u := []) ht
        exact ⟨r, List.mem_append_right _ hr, hv⟩
      | cons y u' =>
        obtain ⟨rfl, rfl⟩ : x = y ∧ v = u' ++ t := by simpa using hsplit
        obtain ⟨r, hr, hv⟩ := hfirst hs
        exact ⟨.seq r second, List.mem_append_left _ (List.mem_map_of_mem hr), u', t, rfl, hv, ht⟩
    · obtain ⟨r, hr, hv⟩ := hsecond (hsplit ▸ ht)
      exact ⟨r, List.mem_append_right _ hr, hv⟩
  | alt preferred other hpreferred hother =>
    rcases h with h | h
    · obtain ⟨r, hr, hv⟩ := hpreferred h
      exact ⟨r, List.mem_append_left _ hr, hv⟩
    · obtain ⟨r, hr, hv⟩ := hother h
      exact ⟨r, List.mem_append_right _ hr, hv⟩
  | repeated body least most greedy hbody =>
    obtain ⟨rounds, hw, hrounds⟩ := h
    induction rounds generalizing u with
    | nil => simp at hw
    | cons s rounds ih =>
      obtain ⟨hs, hrest⟩ := List.forall_mem_cons.mp hrounds
      rcases List.append_eq_append_iff.mp hw with ⟨u', rfl, hsplit⟩ | ⟨u', rfl, hsplit⟩
      · cases u' with
        | nil => exact ih (u := []) hsplit hrest
        | cons y u' =>
          obtain ⟨rfl, rfl⟩ : x = y ∧ v = u' ++ rounds.flatten := by simpa using hsplit
          obtain ⟨r, hr, hv⟩ := hbody hs
          exact ⟨_, List.mem_map_of_mem hr, u', rounds.flatten, rfl, hv, rounds, rfl, hrest⟩
      · exact ih hsplit.symm hrest
  | group index body hbody => exact hbody h

/-- A text of the pattern may begin like the given one. -/
def follows : List Char → Pattern → Bool
  | [], _ => true
  | x :: xs, p => p.skippable || (p.residuals x).any (follows xs)

/-- A text of the pattern may begin with a character of the given one and go on like it. -/
def enters : List Char → Pattern → Bool
  | [], _ => false
  | x :: xs, p => (p.residuals x).any (follows xs)

lemma agree_cons_iff {y : Char} {ys : List Char} : Agree (y :: v) (x :: ys) ↔ y = x ∧ Agree v ys := by
  simp only [Agree, List.cons_prefix_cons, eq_comm (a := x), ← and_or_left]

lemma follows_of_agree {text : List Char} (hv : p.Accepts v) (h : Agree v text) : follows text p = true := by
  induction text generalizing p v with
  | nil => rfl
  | cons x xs ih =>
    rw [follows, Bool.or_eq_true]
    cases v with
    | nil => exact .inl (skippable_of_accepts_nil hv)
    | cons y v =>
      obtain ⟨rfl, hagree⟩ := agree_cons_iff.mp h
      obtain ⟨r, hr, hv⟩ := exists_mem_residuals hv
      exact .inr (List.any_eq_true.mpr ⟨r, hr, ih hv hagree⟩)

lemma enters_of_agree {text : List Char} (hv : p.Accepts v) (hne : v ≠ []) (htext : text ≠ [])
    (h : Agree v text) : enters text p = true := by
  obtain ⟨y, v, rfl⟩ := List.exists_cons_of_ne_nil hne
  obtain ⟨x, xs, rfl⟩ := List.exists_cons_of_ne_nil htext
  obtain ⟨rfl, hagree⟩ := agree_cons_iff.mp h
  obtain ⟨r, hr, hv⟩ := exists_mem_residuals hv
  exact List.any_eq_true.mpr ⟨r, hr, follows_of_agree hv hagree⟩

/-- A match of the pattern does not go on into a text that it enters from no state. -/
lemma not_agree_of_states {P : Char → Bool} {text : List Char} (h : ∀ r ∈ p.states P, enters text r = false)
    (htext : text ≠ []) (hp : p.Accepts (u ++ v)) (hu : u ≠ []) (hlast : u.getLast?.all P = true)
    (hv : v ≠ []) : ¬ Agree v text := by
  intro hagree
  obtain ⟨u, c, rfl⟩ : ∃ u' c, u = u' ++ [c] := ⟨_, _, (List.dropLast_concat_getLast hu).symm⟩
  rw [List.getLast?_concat] at hlast
  rw [List.append_assoc] at hp
  obtain ⟨r, hr, hrest⟩ := exists_mem_states hlast hp
  have henters := enters_of_agree hrest hv htext hagree
  rw [h r hr] at henters
  cases henters

/-- The pattern matches the same whatever stands around. -/
def anchorFree : Pattern → Bool
  | .empty | .set _ => true
  | .anchor _ => false
  | .seq first second => first.anchorFree && second.anchorFree
  | .alt preferred other => preferred.anchorFree && other.anchorFree
  | .repeated body _ _ _ => body.anchorFree
  | .group _ body => body.anchorFree

lemma Rounds.of_forall {R : Relation} (hR : ∀ b w a groups, R b w a groups → ∀ b' a', R b' w a' groups)
    {n : Nat} (h : Rounds R n before w after groups) (before' after' : Option Char) :
    Rounds R n before' w after' groups := by
  induction n generalizing before before' w groups with
  | zero => exact h
  | succ n ih =>
    obtain ⟨u, v, gu, gv, rfl, rfl, hu, hv⟩ := h
    exact ⟨u, v, gu, gv, rfl, rfl, hR _ _ _ _ hu _ _, ih hv _⟩

lemma Matches.of_anchorFree (hp : p.anchorFree = true) (h : p.Matches before w after groups)
    (before' after' : Option Char) : p.Matches before' w after' groups := by
  induction p generalizing before before' w after after' groups with
  | empty => exact h
  | set chars => exact h
  | anchor => cases hp
  | seq first second hfirst hsecond =>
    obtain ⟨hp₁, hp₂⟩ := Bool.and_eq_true_iff.mp hp
    obtain ⟨u, v, gu, gv, rfl, rfl, hu, hv⟩ := h
    exact ⟨u, v, gu, gv, rfl, rfl, hfirst hp₁ hu _ _, hsecond hp₂ hv _ _⟩
  | alt preferred other hpreferred hother =>
    obtain ⟨hp₁, hp₂⟩ := Bool.and_eq_true_iff.mp hp
    exact h.imp (hpreferred hp₁ · _ _) (hother hp₂ · _ _)
  | repeated body least most greedy hbody =>
    have hround : ∀ b w a groups, body.Matches b w a groups → ∀ b' a', body.Matches b' w a' groups :=
      fun _ _ _ _ h b' a' => hbody hp h b' a'
    by_cases hset : ∃ chars, body = .set chars
    · obtain ⟨chars, rfl⟩ := hset
      obtain ⟨n, hleast, hmost, hrounds⟩ := h
      exact ⟨n, hleast, hmost, hrounds.of_forall hround _ _⟩
    · rw [matches_repeated fun chars h => hset ⟨chars, h⟩] at h ⊢
      obtain ⟨n, hleast, hmost, hrounds⟩ := h
      exact ⟨n, hleast, hmost, hrounds.of_forall hround _ _⟩
  | group index body hbody =>
    obtain ⟨inner, rfl, hw⟩ := h
    exact ⟨inner, rfl, hbody hp hw _ _⟩

/-- Every match starts with a word character. -/
def startsWord : Pattern → Bool
  | .set chars => chars.isWithin Text.isWordChar
  | .seq first _ => first.startsWord
  | .group _ body => body.startsWord
  | _ => false

lemma head?_of_startsWord (hp : p.startsWord = true) (h : p.Accepts w) :
    w.head?.any Text.isWordChar = true := by
  induction p generalizing w with
  | set chars =>
    obtain ⟨x, rfl, hx⟩ := h
    exact CharSet.of_isWithin hp hx
  | seq first second hfirst _ =>
    obtain ⟨u, v, rfl, hu, -⟩ := h
    have hhead := hfirst hp hu
    cases u with
    | nil => cases hhead
    | cons x u => exact hhead
  | group index body hbody => exact hbody hp h
  | _ => cases hp

lemma holdsBetween_wordBoundary (before after : Option Char) : Anchor.wordBoundary.holdsBetween before after =
    (before.any Text.isWordChar != after.any Text.isWordChar) := by
  cases after <;> rfl

/-- Every match starts with a word character and behind a place where none stands. -/
def startsApart : Pattern → Bool
  | .seq (.anchor .wordBoundary) p => p.startsWord
  | _ => false

lemma before_of_boundary (hp : p.startsWord = true)
    (h : (Pattern.seq (.anchor .wordBoundary) p).Matches before w after groups) :
    before.any Text.isWordChar = false ∧ p.Matches before w after groups := by
  obtain ⟨_, v, _, gv, rfl, rfl, ⟨rfl, rfl, hboundary⟩, hv⟩ := h
  have hhead := head?_of_startsWord hp (accepts_of_matches hv)
  have hnext : (headOr v after).any Text.isWordChar = true := by
    cases v with
    | nil => cases hhead
    | cons x v => exact hhead
  rw [holdsBetween_wordBoundary, hnext] at hboundary
  exact ⟨by simpa using hboundary, by simpa using hv⟩

lemma before_of_startsApart (hp : p.startsApart = true) (h : p.Matches before w after groups) :
    before.any Text.isWordChar = false := by
  match p, hp with
  | .seq (.anchor .wordBoundary) p, hp => exact (before_of_boundary hp h).1

/-- Every match takes no character or ends with one that belongs to no word. -/
def endsPlain : Pattern → Bool
  | .empty | .anchor _ => true
  | .set chars => chars.isWithin fun x => !Text.isWordChar x
  | .seq first second => first.endsPlain && second.endsPlain
  | .alt preferred other => preferred.endsPlain && other.endsPlain
  | .repeated body _ _ _ => body.endsPlain
  | .group _ body => body.endsPlain

lemma getLast?_of_endsPlain (hp : p.endsPlain = true) (h : p.Accepts w) :
    w.getLast?.any Text.isWordChar = false := by
  have happend : ∀ {u v : List Char}, u.getLast?.any Text.isWordChar = false →
      v.getLast?.any Text.isWordChar = false → (u ++ v).getLast?.any Text.isWordChar = false := by
    intro u v hu hv
    rw [List.getLast?_append]
    cases hlast : v.getLast? with
    | none => simpa using hu
    | some x => simpa [hlast] using hv
  induction p generalizing w with
  | empty =>
    obtain rfl : w = [] := h
    rfl
  | anchor position =>
    obtain rfl : w = [] := h
    rfl
  | set chars =>
    obtain ⟨x, rfl, hx⟩ := h
    simpa using CharSet.of_isWithin hp hx
  | seq first second hfirst hsecond =>
    obtain ⟨hp₁, hp₂⟩ := Bool.and_eq_true_iff.mp hp
    obtain ⟨u, v, rfl, hu, hv⟩ := h
    exact happend (hfirst hp₁ hu) (hsecond hp₂ hv)
  | alt preferred other hpreferred hother =>
    obtain ⟨hp₁, hp₂⟩ := Bool.and_eq_true_iff.mp hp
    exact h.elim (hpreferred hp₁) (hother hp₂)
  | repeated body least most greedy hbody =>
    obtain ⟨rounds, rfl, hrounds⟩ := h
    induction rounds with
    | nil => rfl
    | cons u rounds ih =>
      obtain ⟨hu, hrest⟩ := List.forall_mem_cons.mp hrounds
      exact happend (hbody hp hu) (ih hrest)
  | group index body hbody => exact hbody hp h

/-- No word goes on over the end of a match. -/
def endsApart : Pattern → Bool
  | .anchor .wordBoundary => true
  | .set chars => chars.isWithin fun x => !Text.isWordChar x
  | .seq first second => second.endsApart || (first.endsApart && second.endsPlain)
  | .alt preferred other => preferred.endsApart && other.endsApart
  | .group _ body => body.endsApart
  | _ => false

lemma after_of_endsApart (hp : p.endsApart = true) (h : p.Matches before w after groups)
    (hlast : (lastOr before w).any Text.isWordChar = true) : after.any Text.isWordChar = false := by
  induction p generalizing before w after groups with
  | empty => cases hp
  | anchor position =>
    obtain ⟨rfl, -, hposition⟩ := h
    cases position with
    | wordBoundary =>
      rw [holdsBetween_wordBoundary, show before.any Text.isWordChar = true from hlast] at hposition
      simpa using hposition
    | _ => cases hp
  | set chars =>
    obtain ⟨⟨x, rfl, hx⟩, -⟩ := h
    have hplain := CharSet.of_isWithin hp hx
    have hword : Text.isWordChar x = true := hlast
    simp [hword] at hplain
  | seq first second hfirst hsecond =>
    obtain ⟨u, v, gu, gv, rfl, -, hu, hv⟩ := h
    rw [lastOr_append] at hlast
    rcases Bool.or_eq_true_iff.mp hp with hp | hp
    · exact hsecond hp hv hlast
    · obtain ⟨hp₁, hp₂⟩ := Bool.and_eq_true_iff.mp hp
      cases v with
      | nil => exact hfirst hp₁ hu hlast
      | cons x v =>
        rw [lastOr_of_ne_nil _ (List.cons_ne_nil x v), getLast?_of_endsPlain hp₂ (accepts_of_matches hv)] at hlast
        cases hlast
  | alt preferred other hpreferred hother =>
    obtain ⟨hp₁, hp₂⟩ := Bool.and_eq_true_iff.mp hp
    exact h.elim (hpreferred hp₁ · hlast) (hother hp₂ · hlast)
  | repeated body least most greedy => cases hp
  | group index body hbody =>
    obtain ⟨inner, -, hw⟩ := h
    exact hbody hp hw hlast

end Pattern

/-- A text that a replacement puts in, and whether only where no word character stands before. -/
structure Patch where
  new : List Char
  apart : Bool := false

namespace Patch

/-- The character may stand before the text. -/
def admits (patch : Patch) (x : Char) : Bool := !(patch.apart && Text.isWordChar x)

/-- A stretch is swapped for the text of the patch. A word that goes on over the end of the stretch does so
over the end of the text. -/
structure Puts (patch : Patch) (before : Option Char) (old new : List Char) (after : Option Char) : Prop where
  new_eq : new = patch.new
  old_ne : old ≠ []
  apart : patch.apart = true → before.any Text.isWordChar = false
  last : old.getLast?.any Text.isWordChar = true →
    new.getLast?.any Text.isWordChar = true ∨ after.any Text.isWordChar = false

lemma Puts.admits_before {patch : Patch} {before after : Option Char} {old new : List Char}
    (h : patch.Puts before old new after) : before.all patch.admits = true := by
  cases before with
  | none => rfl
  | some x =>
    cases hapart : patch.apart with
    | false => simp [admits, hapart]
    | true => simpa [admits, hapart] using h.apart hapart

/-- A stretch is swapped for the text of one of the patches. -/
def OneOf (patches : List Patch) (before : Option Char) (old new : List Char) (after : Option Char) : Prop :=
  ∃ patch ∈ patches, patch.Puts before old new after

end Patch

namespace Pattern

variable {q : Pattern} {before after : Option Char} {w : List Char} {groups : Groups} {patches : List Patch}

/-- No match of the pattern overlaps with the text of the patch. -/
def avoids (q : Pattern) (patch : Patch) : Bool :=
  !patch.new.isEmpty && patch.new.tails.all (fun new => !enters new q) &&
    (q.states patch.admits).all fun r => !enters patch.new r

/-- The pattern looks at what stands around at most by a word boundary in front. -/
def steady : Pattern → Bool
  | .seq (.anchor .wordBoundary) p => p.startsWord && p.anchorFree
  | p => p.anchorFree

/-- A match stays one where the stretch before it was swapped. -/
lemma matches_of_linked (hq : q.steady = true) {old new : Option Char}
    (hlinked : Rewritten.Linked (Patch.OneOf patches) w.head? old new) (h : q.Matches new w after groups)
    (after' : Option Char) : ∃ groups', q.Matches old w after' groups' := by
  unfold steady at hq
  split at hq
  · next p =>
    obtain ⟨hp, hfree⟩ := Bool.and_eq_true_iff.mp hq
    obtain ⟨hnew, hw⟩ := before_of_boundary hp h
    have hhead := head?_of_startsWord hp (accepts_of_matches hw)
    have hold : old.any Text.isWordChar = false := by
      rcases hlinked with rfl | ⟨before, u, v, ⟨patch, -, hputs⟩, rfl, rfl⟩
      · exact hnew
      · rw [← Bool.not_eq_true]
        intro hu
        rcases hputs.last hu with hv | hnext
        · rw [hv] at hnew
          cases hnew
        · rw [hhead] at hnext
          cases hnext
    have hnext : (headOr w after').any Text.isWordChar = true := by
      cases w with
      | nil => cases hhead
      | cons x w => exact hhead
    refine ⟨groups, [], w, [], groups, rfl, by simp, ⟨rfl, rfl, ?_⟩, hw.of_anchorFree hfree _ _⟩
    rw [holdsBetween_wordBoundary, hold, hnext]
    rfl
  · exact ⟨groups, h.of_anchorFree hq _ _⟩

/-- A pattern that avoids all texts put in, and matches nowhere among the characters kept, does not occur in
the new text. -/
theorem not_occursIn_of_rewritten (hq : q.consumes = true) (hsteady : q.steady = true)
    (havoids : ∀ patch ∈ patches, q.avoids patch = true) {s t : List Char}
    (h : Rewritten q.Unmatched (Patch.OneOf patches) none s t) : q.occursIn t = false := by
  have havoids' : ∀ patch ∈ patches, patch.new ≠ [] ∧ (∀ new, new <:+ patch.new → enters new q = false) ∧
      ∀ r ∈ q.states patch.admits, enters patch.new r = false := by
    intro patch hpatch
    have h := havoids patch hpatch
    simp only [avoids, Bool.and_eq_true, List.all_eq_true, Bool.not_eq_true', List.isEmpty_eq_false_iff,
      List.mem_tails, and_assoc] at h
    exact h
  rw [← Bool.not_eq_true, occursIn_iff]
  rintro ⟨x, w, y, groups, ht, hw⟩
  have hne : w ≠ [] := ne_nil_of_matches hq hw
  have haccepts : q.Accepts w := accepts_of_matches hw
  have hfull : ∀ {before old new after}, Patch.OneOf patches before old new after → old ≠ [] ∧ new ≠ [] := by
    rintro before old new after ⟨patch, hpatch, hputs⟩
    exact ⟨hputs.old_ne, hputs.new_eq ▸ (havoids' patch hpatch).1⟩
  rw [List.append_assoc] at ht
  cases h.locate hfull (.inl rfl) hne ht with
  | kept x' y' hs hkept hlinked =>
    obtain ⟨groups', hold⟩ := matches_of_linked hsteady hlinked hw y'.head?
    exact hkept w y' groups' rfl hold
  | into x' u v old new s' huv hu hv hs hkept hswap hagree =>
    obtain ⟨patch, hpatch, hputs⟩ := hswap
    obtain ⟨hnew, -, hstates⟩ := havoids' patch hpatch
    rw [huv] at haccepts
    exact not_agree_of_states hstates hnew haccepts hu hputs.admits_before hv (hputs.new_eq ▸ hagree)
  | within c old new after new' hswap hnew hnew' hagree =>
    obtain ⟨patch, hpatch, hputs⟩ := hswap
    obtain ⟨-, htails, -⟩ := havoids' patch hpatch
    have henters := enters_of_agree haccepts hne hnew' hagree
    rw [htails new' (hputs.new_eq ▸ hnew)] at henters
    cases henters

lemma unmatched_of_not_occursIn {s x y : List Char} (h : q.occursIn s = false) (hs : s = x ++ y) :
    q.Unmatched (lastOr none x) y := by
  rintro w z groups rfl hw
  rw [← Bool.not_eq_true, occursIn_iff] at h
  exact h ⟨x, w, z, groups, by rw [hs, List.append_assoc], hw⟩

/-- A pattern that does not occur in a text does not come up by patches that it avoids. -/
theorem not_occursIn_of_patched (hq : q.consumes = true) (hsteady : q.steady = true)
    (havoids : ∀ patch ∈ patches, q.avoids patch = true) {s t : List Char} (hs : q.occursIn s = false)
    (h : Rewritten (fun _ _ => True) (Patch.OneOf patches) none s t) : q.occursIn t = false :=
  not_occursIn_of_rewritten hq hsteady havoids (h.of_forall fun _ _ => unmatched_of_not_occursIn hs)

/-- The patch of a fixed text for the matches of a pattern. -/
def patch (p : Pattern) (new : List Char) : Patch := ⟨new, p.startsApart⟩

lemma puts_of_matches {p : Pattern} (hp : p.consumes = true) {old new : List Char}
    (hlast : (new.getLast?.any Text.isWordChar || p.endsApart) = true)
    (h : p.Matches before old after groups) : (p.patch new).Puts before old new after where
  new_eq := rfl
  old_ne := ne_nil_of_matches hp h
  apart happ := before_of_startsApart happ h
  last hold := by
    rw [← lastOr_of_ne_nil before (ne_nil_of_matches hp h)] at hold
    exact (Bool.or_eq_true_iff.mp hlast).imp_right (after_of_endsApart · h hold)

end Pattern

end SpaMigration
