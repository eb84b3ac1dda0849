import SpaMigration.Migration.Transform
import SpaMigration.Proofs.DiskPaths
import SpaMigration.Proofs.PatternRewrites
import SpaMigration.Proofs.RulePatches

/-!
# Lines of comments

A line of a comment begins, behind blanks and tabs, with two slashes and ends with a line feed. The pattern for
such lines matches whole lines and nothing else, so taking out its matches leaves out these lines of the text and
keeps all others.
-/
namespace SpaMigration

namespace Text

/-- The lines of a text, each with the line feed that ends it; the last one may be without. -/
def lines : List Char → List (List Char)
  | [] => []
  | c :: rest =>
    if c = '\n' then [c] :: lines rest
    else
      match lines rest with
      | [] => [[c]]
      | line :: others => (c :: line) :: others

/-- A blank or a tab. -/
def isSpacing (c : Char) : Bool := c == ' ' || c == '\t'

/-- A line with nothing but a comment, ended by a line feed. -/
def IsCommentLine (line : List Char) : Prop :=
  ∃ spacing body, line = spacing ++ '/' :: '/' :: (body ++ ['\n']) ∧ (∀ c ∈ spacing, isSpacing c) ∧ '\n' ∉ body

/-- The line is one of a comment, by what stands behind its spacing. -/
def isCommentLine (line : List Char) : Bool :=
  (dropPrefix? ['/', '/'] (line.dropWhile isSpacing)).any fun rest =>
    rest == rest.takeWhile (· != '\n') ++ ['\n']

lemma isCommentLine_iff {line : List Char} : isCommentLine line = true ↔ IsCommentLine line := by
  simp only [isCommentLine, Option.any_eq_true, dropPrefix?_eq_some_iff, beq_iff_eq]
  constructor
  · rintro ⟨rest, hslashes, hrest⟩
    refine ⟨line.takeWhile isSpacing, rest.takeWhile (· != '\n'), ?_, ?_, ?_⟩
    · rw [← hrest]
      exact List.takeWhile_append_dropWhile.symm.trans (congrArg _ hslashes)
    · exact fun c hc => List.mem_takeWhile_imp hc
    · intro hmem
      simpa using List.mem_takeWhile_imp hmem
  · rintro ⟨spacing, body, rfl, hspacing, hbody⟩
    refine ⟨body ++ ['\n'], ?_, ?_⟩
    · rw [List.dropWhile_append_of_pos hspacing]
      rfl
    · have hunended : ∀ c ∈ body, (c != '\n') = true := fun c hc => by
        rw [bne_iff_ne]
        rintro rfl
        exact hbody hc
      rw [List.takeWhile_append_of_pos hunended]
      simp

instance (line : List Char) : Decidable (IsCommentLine line) := decidable_of_iff _ isCommentLine_iff

/-- The text without its lines of comments. -/
def withoutComments (text : List Char) : List Char :=
  ((lines text).filter fun line => !isCommentLine line).flatten

/-- The text without the lines of comments below its first line. -/
def withoutCommentsBelow (text : List Char) : List Char :=
  match lines text with
  | [] => []
  | line :: others => line ++ (others.filter fun other => !isCommentLine other).flatten

lemma flatten_lines (text : List Char) : (lines text).flatten = text := by
  induction text with
  | nil => rfl
  | cons c rest ih =>
    unfold lines
    split_ifs
    · simp [ih]
    · cases hlines : lines rest with
      | nil => simpa [hlines] using ih
      | cons line others => simpa [hlines] using ih

@[simp] lemma withoutCommentsBelow_nil : withoutCommentsBelow [] = [] := rfl

lemma withoutCommentsBelow_newline (rest : List Char) :
    withoutCommentsBelow ('\n' :: rest) = '\n' :: withoutComments rest := by
  rw [withoutCommentsBelow, lines, if_pos rfl]
  rfl

lemma withoutCommentsBelow_cons {c : Char} (h : c ≠ '\n') (rest : List Char) :
    withoutCommentsBelow (c :: rest) = c :: withoutCommentsBelow rest := by
  rw [withoutCommentsBelow, lines, if_neg h, withoutCommentsBelow]
  cases lines rest <;> rfl

/-- A text that does not begin with a line of a comment keeps its first line. -/
lemma withoutComments_eq_below {text : List Char} (h : ∀ line rest, text = line ++ rest → ¬ IsCommentLine line) :
    withoutComments text = withoutCommentsBelow text := by
  have hflatten := flatten_lines text
  rw [withoutComments, withoutCommentsBelow]
  cases hlines : lines text with
  | nil => rfl
  | cons line others =>
    rw [hlines, List.flatten_cons] at hflatten
    have hfirst : isCommentLine line = false := by
      rw [← Bool.not_eq_true, isCommentLine_iff]
      exact h line _ hflatten.symm
    simp [hfirst]

lemma lines_ne_nil {text : List Char} (h : text ≠ []) : lines text ≠ [] :=
  fun hnil => h (by rw [← flatten_lines text, hnil, List.flatten_nil])

lemma lines_eq_singleton {text : List Char} (hne : text ≠ []) (h : '\n' ∉ text) : lines text = [text] := by
  induction text with
  | nil => exact absurd rfl hne
  | cons c rest ih =>
    obtain ⟨hc, hrest⟩ := List.ne_and_not_mem_of_not_mem_cons h
    rw [lines, if_neg hc.symm]
    cases rest with
    | nil => rfl
    | cons d rest => rw [ih (List.cons_ne_nil _ _) hrest]

lemma length_lines_le {text : List Char} (h : '\n' ∉ text) : (lines text).length ≤ 1 := by
  by_cases hne : text = []
  · rw [hne]
    exact Nat.zero_le 1
  · rw [lines_eq_singleton hne h, List.length_singleton]

/-- Lines that are ended are not joined with what follows them. -/
lemma lines_append_of_ended {above : List Char} (h : above = [] ∨ above.getLast? = some '\n') (rest : List Char) :
    lines (above ++ rest) = lines above ++ lines rest := by
  induction above with
  | nil => rfl
  | cons c above ih =>
    cases habove : above with
    | nil =>
      subst habove
      obtain rfl : c = '\n' := by simpa using h
      rfl
    | cons d others =>
      have hended : above.getLast? = some '\n' := by simpa [habove] using h
      have hne : above ≠ [] := habove ▸ List.cons_ne_nil d others
      rw [← habove, List.cons_append, lines, lines, ih (.inr hended)]
      split_ifs
      · rfl
      · obtain ⟨line, more, hlines⟩ := List.exists_cons_of_ne_nil (lines_ne_nil hne)
        rw [hlines]
        rfl

lemma lines_append {line : List Char} (h : '\n' ∉ line) (rest : List Char) :
    lines (line ++ '\n' :: rest) = (line ++ ['\n']) :: lines rest := by
  induction line with
  | nil => rw [List.nil_append, lines, if_pos rfl, List.nil_append]
  | cons c line ih =>
    obtain ⟨hc, hline⟩ := List.ne_and_not_mem_of_not_mem_cons h
    rw [List.cons_append, lines, if_neg (Ne.symm hc), ih hline]
    rfl

lemma IsCommentLine.exists_eq_append {line : List Char} (h : IsCommentLine line) :
    ∃ front, line = front ++ ['\n'] ∧ '\n' ∉ front := by
  obtain ⟨spacing, body, rfl, hspacing, hbody⟩ := h
  refine ⟨spacing ++ '/' :: '/' :: body, by simp, ?_⟩
  simp only [List.mem_append, List.mem_cons, Char.reduceEq, false_or, not_or]
  exact ⟨fun hmem => by simpa [isSpacing] using hspacing _ hmem, hbody⟩

/-- A line of a comment in front of a text is left out. -/
lemma withoutComments_append {line : List Char} (h : IsCommentLine line) (rest : List Char) :
    withoutComments (line ++ rest) = withoutComments rest := by
  obtain ⟨front, hline, hfront⟩ := h.exists_eq_append
  have hlines : lines (line ++ rest) = line :: lines rest := by
    rw [hline, List.append_assoc]
    exact lines_append hfront rest
  rw [withoutComments, hlines, List.filter_cons_of_neg (by simpa using isCommentLine_iff.mpr h), ← withoutComments]

end Text

open Text (IsCommentLine isSpacing withoutComments withoutCommentsBelow)

variable {before after : Option Char} {w s t : List Char} {groups : Groups}

lemma matches_many_set_iff {chars : CharSet} : (Pattern.many (.set chars)).Matches before w after groups ↔
    (∀ x ∈ w, chars.contains x = true) ∧ groups = [] := by
  constructor
  · rintro ⟨n, -, -, hrounds⟩
    exact (Pattern.rounds_set_iff.mp hrounds).2
  · intro h
    exact ⟨w.length, Nat.zero_le _, by simp, Pattern.rounds_set_iff.mpr ⟨rfl, h⟩⟩

lemma holdsBetween_lineStart : Anchor.lineStart.holdsBetween before after = true ↔ ∀ c ∈ before, c = '\n' := by
  cases before <;> simp [Anchor.holdsBetween, Anchor.holds]

lemma contains_spacing {c : Char} : (CharSet.ofList " \t".toList).contains c = true ↔ isSpacing c = true := by
  rw [Pattern.contains_ofList]
  simp [isSpacing]

lemma contains_unended {c : Char} : (CharSet.compl (.ofList "\n".toList)).contains c = true ↔ c ≠ '\n' := by
  rw [Pattern.contains_compl_ofList]
  simp

/-- The pattern matches the lines of comments where a line starts. -/
lemma matches_commentLine_iff : commentLine.Matches before w after groups ↔
    (∀ c ∈ before, c = '\n') ∧ IsCommentLine w ∧ groups = [] := by
  constructor
  · rintro ⟨_, _, _, _, rfl, rfl, ⟨rfl, rfl, hstart⟩, spacing, _, _, _, rfl, rfl, hspacing,
      _, _, _, _, rfl, rfl, hslashes, body, _, _, _, rfl, rfl, hbody, _, _, _, _, rfl, rfl, hend, rfl, rfl⟩
    obtain ⟨hspaces, rfl⟩ := matches_many_set_iff.mp hspacing
    obtain ⟨hrest, rfl⟩ := matches_many_set_iff.mp hbody
    obtain ⟨rfl, rfl⟩ := Pattern.matches_text_iff.mp hslashes
    obtain ⟨rfl, rfl⟩ := Pattern.matches_text_iff.mp hend
    refine ⟨holdsBetween_lineStart.mp hstart, ⟨spacing, body, by simp, ?_, ?_⟩, by simp⟩
    · exact fun c hc => contains_spacing.mp (hspaces c hc)
    · exact fun hc => contains_unended.mp (hrest _ hc) rfl
  · rintro ⟨hstart, ⟨spacing, body, rfl, hspacing, hbody⟩, rfl⟩
    have hspaces : (Pattern.many (Pattern.oneOf " \t")).Matches before spacing (some '/') [] :=
      matches_many_set_iff.mpr ⟨fun c hc => contains_spacing.mpr (hspacing c hc), rfl⟩
    have hrest : (Pattern.many (Pattern.noneOf "\n")).Matches (some '/') body (some '\n') [] :=
      matches_many_set_iff.mpr ⟨fun c hc => contains_unended.mpr fun heq => hbody (heq ▸ hc), rfl⟩
    refine ⟨[], _, [], [], rfl, rfl, ⟨rfl, rfl, holdsBetween_lineStart.mpr hstart⟩, spacing, _, [], [], rfl, rfl, ?_,
      ['/', '/'], _, [], [], rfl, rfl, ?_, body, ['\n'], [], [], rfl, rfl, ?_, ['\n'], [], [], [], rfl, rfl, ?_, rfl, rfl⟩
    · exact hspaces
    · exact Pattern.matches_text_iff.mpr ⟨rfl, rfl⟩
    · simpa using hrest
    · exact Pattern.matches_text_iff.mpr ⟨rfl, rfl⟩

/-- What is known of a rewriting determines its result: it leaves out the lines of comments from where a line
starts, and from elsewhere those below. -/
lemma eq_of_rewritten {replacement : Match → List Char} (hnone : ∀ m, replacement m = [])
    (h : Rewritten commentLine.Unmatched (commentLine.Replaces replacement) before s t) :
    ((∀ c ∈ before, c = '\n') → t = withoutComments s) ∧
      ((¬ ∀ c ∈ before, c = '\n') → t = withoutCommentsBelow s) := by
  induction h with
  | nil => exact ⟨fun _ => rfl, fun _ => rfl⟩
  | @keep before c s t hkept _ ih =>
    have hbelow : c :: t = withoutCommentsBelow (c :: s) := by
      by_cases hc : c = '\n'
      · subst hc
        rw [Text.withoutCommentsBelow_newline, ih.1 (by simp)]
      · rw [Text.withoutCommentsBelow_cons hc, ih.2 (by simpa using hc)]
    refine ⟨fun hstart => ?_, fun _ => hbelow⟩
    rw [hbelow, Text.withoutComments_eq_below]
    intro line rest hline hcomment
    exact hkept line rest [] hline (matches_commentLine_iff.mpr ⟨hstart, hcomment, rfl⟩)
  | @swap before old new s t hswap _ ih =>
    obtain ⟨m, rfl, -, hmatch⟩ := hswap
    obtain ⟨hstart, hcomment, -⟩ := matches_commentLine_iff.mp hmatch
    obtain ⟨front, hold, -⟩ := hcomment.exists_eq_append
    refine ⟨fun _ => ?_, fun hno => absurd hstart hno⟩
    have hnewline : ∀ c ∈ lastOr before old, c = '\n' := by simp [hold, lastOr_append]
    rw [hnone, List.nil_append, ih.1 hnewline, Text.withoutComments_append hcomment]

/-- Taking out what the pattern matches leaves out the lines of comments and nothing else. -/
theorem replaceAll_commentLine (text : List Char) :
    commentLine.replaceAll (fun _ => []) text = withoutComments text :=
  (eq_of_rewritten (fun _ => rfl) (Pattern.rewritten_replaceAll (by decide) (fun _ => []) text)).1 (by simp)

end SpaMigration
