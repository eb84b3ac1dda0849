import SpaMigration.Proofs.DiskPaths
import SpaMigration.Proofs.RulePatches

/-!
# Words that every match contains

A check on patterns which shows that each match of a pattern contains one of a list of words. A text without
the words is then left alone by a rule with such a pattern. The check reads a pattern from left to right and
keeps the letters that are certain to stand right before the place it has come to.
-/
namespace SpaMigration

namespace Text

theorem occursIn_iff {part s : List Char} : occursIn part s = true ↔ part <:+: s := by
  induction s with
  | nil => simp [occursIn]
  | cons c cs ih => rw [occursIn, Bool.or_eq_true, startsWith_iff, ih, List.infix_cons_iff]

/-- One of the words occurs in the text. -/
def mentions (words : List String) (s : List Char) : Bool := words.any fun word => occursIn word.toList s

lemma mentions_iff {words : List String} {s : List Char} :
    mentions words s = true ↔ ∃ word ∈ words, word.toList <:+: s := by
  simp only [mentions, List.any_eq_true, occursIn_iff]

lemma mentions_mono {words : List String} {s t : List Char} (h : mentions words s = true) (hst : s <:+: t) :
    mentions words t = true := by
  obtain ⟨word, hword, hs⟩ := mentions_iff.mp h
  exact mentions_iff.mpr ⟨word, hword, hs.trans hst⟩

end Text

namespace Pattern

open Text (mentions mentions_mono)

variable {words : List String} {p : Pattern} {before after : Option Char} {w : List Char} {groups : Groups}

/-- The only text that the pattern matches, if it is written out letter by letter. -/
def spelled? : Pattern → Option (List Char)
  | .empty => some []
  | .set (.range lo hi) => if lo = hi then some [lo] else none
  | .seq first second => first.spelled?.bind fun u => second.spelled?.map (u ++ ·)
  | .group _ body => body.spelled?
  | _ => none

lemma eq_of_spelled? {u : List Char} (hp : p.spelled? = some u) (h : p.Matches before w after groups) :
    w = u := by
  induction p generalizing before w after groups u with
  | empty => exact h.1.trans (Option.some.inj hp)
  | set chars =>
    cases chars with
    | range lo hi =>
      obtain ⟨⟨x, rfl, hx⟩, -⟩ := h
      obtain ⟨rfl, hu⟩ := Option.ite_none_right_eq_some.mp hp
      rw [CharSet.eq_of_mem_range hx]
      exact Option.some.inj hu
    | _ => cases hp
  | seq first second hfirst hsecond =>
    obtain ⟨a, ha, hrest⟩ := Option.bind_eq_some_iff.mp hp
    obtain ⟨b, hb, rfl⟩ := Option.map_eq_some_iff.mp hrest
    obtain ⟨u, v, gu, gv, rfl, -, hu, hv⟩ := h
    rw [hfirst ha hu, hsecond hb hv]
  | group index body hbody =>
    obtain ⟨inner, -, hw⟩ := h
    exact hbody hp hw
  | anchor | alt | repeated => cases hp

/-- A match behind a known stretch of text is sure to contain one of the words, or to complete one with that
stretch. -/
def completes (words : List String) : List Char → Pattern → Bool
  | known, .seq first second =>
    match first.spelled? with
    | some u => completes words (known ++ u) second
    | none => mentions words known || completes words known first || completes words [] second
  | known, .alt preferred other => completes words known preferred && completes words known other
  | known, .repeated body least _ _ => decide (0 < least) && completes words known body
  | known, .group _ body => completes words known body
  | known, p => (p.spelled?).any fun u => mentions words (known ++ u)

lemma mentions_of_spelled? {known : List Char}
    (hp : ((p.spelled?).any fun u => mentions words (known ++ u)) = true)
    (h : p.Matches before w after groups) : mentions words (known ++ w) = true := by
  cases hspelled : p.spelled? with
  | none => simp [hspelled] at hp
  | some u =>
    rw [eq_of_spelled? hspelled h]
    simpa [hspelled] using hp

/-- The check is sound: together with the known text, every match contains one of the words. -/
theorem mentions_of_completes {known : List Char} (hp : completes words known p = true)
    (h : p.Matches before w after groups) : mentions words (known ++ w) = true := by
  induction p generalizing before w after groups known with
  | empty | set | anchor => exact mentions_of_spelled? hp h
  | seq first second hfirst hsecond =>
    obtain ⟨u, v, gu, gv, rfl, -, hu, hv⟩ := h
    rw [completes] at hp
    cases hspelled : first.spelled? with
    | some u' =>
      rw [hspelled] at hp
      rw [eq_of_spelled? hspelled hu, ← List.append_assoc]
      exact hsecond hp hv
    | none =>
      rw [hspelled] at hp
      simp only [Bool.or_eq_true] at hp
      obtain (hknown | hp) | hp := hp
      · exact mentions_mono hknown (List.prefix_append _ _).isInfix
      · rw [← List.append_assoc]
        exact mentions_mono (hfirst hp hu) (List.prefix_append _ _).isInfix
      · rw [← List.append_assoc]
        exact mentions_mono (hsecond hp hv) (List.suffix_append _ _).isInfix
  | alt preferred other hpreferred hother =>
    obtain ⟨hp₁, hp₂⟩ := Bool.and_eq_true_iff.mp hp
    exact h.elim (hpreferred hp₁) (hother hp₂)
  | repeated body least most greedy hbody =>
    obtain ⟨hleast, hp⟩ := Bool.and_eq_true_iff.mp hp
    obtain ⟨n, hn, hrounds⟩ := exists_rounds_of_matches_repeated h
    -- The first round is enough, and there is one.
    obtain ⟨n, rfl⟩ : ∃ m, n = m + 1 := Nat.exists_eq_add_one.mpr (by have := of_decide_eq_true hleast; omega)
    obtain ⟨u, v, gu, gv, rfl, -, hu, -⟩ := hrounds
    rw [← List.append_assoc]
    exact mentions_mono (hbody hp hu) (List.prefix_append _ _).isInfix
  | group index body hbody =>
    obtain ⟨inner, -, hw⟩ := h
    exact hbody hp hw

/-- A pattern that passes the check occurs in no text without the words. -/
theorem mentions_of_occursIn {text : List Char} (hp : completes words [] p = true)
    (h : p.occursIn text = true) : mentions words text = true := by
  obtain ⟨x, w, y, groups, rfl, hw⟩ := occursIn_iff.mp h
  exact mentions_mono (mentions_of_completes hp hw) (List.infix_append x w y)

end Pattern

end SpaMigration
