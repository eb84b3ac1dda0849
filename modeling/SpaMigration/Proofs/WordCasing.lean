import Mathlib.Tactic.Common
import SpaMigration.Route.Target

/-!
# The words of a component name

The casing of words takes a text apart into words, each of which is a capital or a digit with small letters
behind it, and runs them together. The words can be told from the name again, so that two texts get the same
name exactly when they have the same words.
-/
namespace SpaMigration

namespace Text

lemma isLower_of_isDigit {c : Char} (h : c.isDigit = true) : c.isLower = false := by
  delta Char.isLower
  simp only [Char.isDigit] at h
  grind

lemma isLower_toUpper (c : Char) : c.toUpper.isLower = false := by
  delta Char.isLower Char.toUpper
  split <;> grind [UInt32.toNat_add]

lemma isLower_toLower {c : Char} (h : c.isAlpha = true) : c.toLower.isLower = true := by
  delta Char.isAlpha Char.isUpper Char.isLower at h
  delta Char.isLower Char.toLower
  simp only [UInt32.le_iff_toNat_le, ge_iff_le, Bool.and_eq_true, decide_eq_true_eq] at h ⊢
  split <;> grind [UInt32.toNat_add]

/-- A letter or digit that is no digit is a letter. -/
lemma isAlpha_of_isAlphanum {c : Char} (hword : c.isAlphanum = true) (hdigit : ¬ c.isDigit = true) :
    c.isAlpha = true := by
  simpa [Char.isAlphanum, hdigit] using hword

end Text

/-- A word of a name: a capital or a digit, and small letters. -/
structure Word where
  initial : Char
  rest : List Char
  initial_not_small : initial.isLower = false
  rest_small : rest.all Char.isLower = true
  deriving DecidableEq

namespace Word

/-- The text of a word. -/
def text (word : Word) : List Char := word.initial :: word.rest

/-- The small letters in front of several words end where the first word starts. -/
lemma small_append_inj {small more : List Char} {words others : List Word}
    (hsmall : small.all Char.isLower = true) (hmore : more.all Char.isLower = true)
    (h : small ++ words.flatMap text = more ++ others.flatMap text) :
    small = more ∧ words.flatMap text = others.flatMap text := by
  have htake : ∀ {letters : List Char} (behind : List Word), letters.all Char.isLower = true →
      (letters ++ behind.flatMap text).takeWhile Char.isLower = letters := by
    intro letters behind hletters
    rw [List.takeWhile_append_of_pos (List.all_eq_true.mp hletters)]
    cases behind with
    | nil => simp
    | cons word rest => simp [text, word.initial_not_small]
  have heq : small = more := by rw [← htake words hsmall, h, htake others hmore]
  subst heq
  exact ⟨rfl, List.append_cancel_left h⟩

/-- Words that are run together can be told apart. -/
theorem flatMap_text_inj {words others : List Word} (h : words.flatMap text = others.flatMap text) :
    words = others := by
  induction words generalizing others with
  | nil =>
    cases others with
    | nil => rfl
    | cons word rest => simp [text] at h
  | cons word rest ih =>
    cases others with
    | nil => simp [text] at h
    | cons other more =>
      simp only [List.flatMap_cons, text, List.cons_append, List.cons.injEq] at h
      obtain ⟨hinitial, hbehind⟩ := h
      obtain ⟨hrest, hwords⟩ := small_append_inj word.rest_small other.rest_small hbehind
      have hword : word = other := by
        cases word
        cases other
        simp only at hinitial hrest
        subst hinitial hrest
        rfl
      rw [hword, ih hwords]

end Word

/-- Small letters. -/
abbrev SmallLetters := { letters : List Char // letters.all Char.isLower = true }

namespace TargetRoute

open Word

/-- What the casing makes of a text: the letters that go on with the word begun before it, and the words
behind them. A digit is a word of its own. -/
def spelling : CasingState → List Char → SmallLetters × List Word
  | _, [] => (⟨[], rfl⟩, [])
  | state, c :: cs =>
    if hword : c.isAlphanum = true then
      if hdigit : c.isDigit = true then
        let more := spelling { state with atWordStart := true } cs
        (⟨[], rfl⟩, ⟨c, [], Text.isLower_of_isDigit hdigit, rfl⟩ :: more.2)
      else if state.atWordStart || (state.last.isLower && c.isUpper) then
        let more := spelling { state with atWordStart := false } cs
        (⟨[], rfl⟩, ⟨c.toUpper, more.1.1, Text.isLower_toUpper c, more.1.2⟩ :: more.2)
      else
        let more := spelling { state with last := c } cs
        have hlower := Text.isLower_toLower (Text.isAlpha_of_isAlphanum hword hdigit)
        (⟨c.toLower :: more.1.1, by simp only [List.all_cons, hlower, more.1.2, Bool.and_self]⟩, more.2)
    else (⟨[], rfl⟩, (spelling { state with atWordStart := true } cs).2)

/-- At the start of a word no letters go on with the word before. -/
lemma spelling_fst_of_atWordStart (last : Char) (cs : List Char) :
    (spelling ⟨true, last⟩ cs).1.1 = [] := by
  cases cs with
  | nil => rfl
  | cons c cs =>
    simp only [spelling, Bool.true_or, if_true]
    split_ifs <;> rfl

lemma pascalCase_eq (state : CasingState) (cs : List Char) :
    pascalCase state cs = (spelling state cs).1.1 ++ (spelling state cs).2.flatMap text := by
  induction cs generalizing state with
  | nil => rfl
  | cons c cs ih =>
    have hstart := spelling_fst_of_atWordStart state.last cs
    simp only [pascalCase, spelling]
    by_cases hword : c.isAlphanum = true
    · by_cases hdigit : c.isDigit = true
      · simp [hword, hdigit, ih, text, hstart]
      · by_cases hbegins : (state.atWordStart || (state.last.isLower && c.isUpper)) = true
        · simp [hword, hdigit, hbegins, ih, text]
        · simp [hword, hdigit, hbegins, ih]
    · simp [hword, ih, hstart]

/-- Where no word goes on it does not matter which character that is. -/
lemma pascalCase_map_blank (state : CasingState) (cs : List Char) :
    pascalCase state (cs.map fun c => if c.isAlphanum then c else ' ') = pascalCase state cs := by
  have hblank : ' '.isAlphanum = false := by decide
  induction cs generalizing state with
  | nil => rfl
  | cons c cs ih =>
    by_cases hword : c.isAlphanum = true
    · simp [pascalCase, hword, ih]
    · simp [pascalCase, hword, hblank, ih]

/-- The words of a text. -/
def wordsOf (raw : String) : List Word := (spelling ⟨true, ' '⟩ raw.toList).2

/-- The words of the component name that is made of a text, but for the ending. -/
def nameWords (raw : String) (ending : Word) : List Word :=
  if (wordsOf raw).head?.all (·.initial.isDigit) then ending :: wordsOf raw else wordsOf raw

lemma identifier_eq (raw : String) (ending : Word) :
    (identifier raw (String.ofList ending.text)).toList =
      (nameWords raw ending).flatMap text ++ ending.text := by
  have hname : pascalCase ⟨true, ' '⟩ (raw.toList.map fun c => if c.isAlphanum then c else ' ') =
      (wordsOf raw).flatMap text := by
    rw [pascalCase_map_blank, pascalCase_eq, spelling_fst_of_atWordStart, List.nil_append, wordsOf]
  simp only [identifier, hname, nameWords]
  cases hwords : wordsOf raw with
  | nil => simp
  | cons word rest =>
    by_cases hdigit : word.initial.isDigit = true
    · simp [text, hdigit]
    · simp [text, hdigit]

/-- Two texts get the same component name exactly when it is made of the same words. -/
theorem identifier_eq_iff {raw other : String} {ending : Word} :
    identifier raw (String.ofList ending.text) = identifier other (String.ofList ending.text) ↔
      nameWords raw ending = nameWords other ending := by
  rw [← String.toList_inj, identifier_eq, identifier_eq, List.append_cancel_right_eq]
  exact ⟨flatMap_text_inj, congrArg _⟩

example : (wordsOf "blog-posts/v2/[newId]").map (·.text) =
    ["Blog", "Posts", "V", "2", "New", "Id"].map String.toList := by decide

end TargetRoute

end SpaMigration
