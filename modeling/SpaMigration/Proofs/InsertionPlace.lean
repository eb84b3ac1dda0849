import SpaMigration.ImportBlock
import SpaMigration.Proofs.PatternRewrites
import SpaMigration.Proofs.PatternWords

/-!
# The place of insertion

A match of the pattern for import lines ends where a line does. So statements are inserted on lines of their
own, and a statement that the text does not have is found in the result only on the line where it was put.
-/
namespace SpaMigration

namespace Text

variable {α : Type} [BEq α]

lemma dedup_concat (xs : List α) (x : α) :
    dedup (xs ++ [x]) = if (dedup xs).contains x then dedup xs else dedup xs ++ [x] := by
  rw [dedup, List.foldl_append]
  rfl

variable [LawfulBEq α]

@[simp] lemma mem_dedup {xs : List α} {x : α} : x ∈ dedup xs ↔ x ∈ xs := by
  induction xs using List.reverseRecOn with
  | nil => rfl
  | append_singleton xs y ih =>
    rw [dedup_concat]
    split_ifs with hy
    · have hmem : y ∈ dedup xs := List.contains_iff_mem.mp hy
      simp only [List.mem_append, List.mem_singleton, ih]
      exact ⟨.inl, fun h => h.elim id fun heq => heq ▸ ih.mp (heq ▸ hmem)⟩
    · simp [ih]

lemma nodup_dedup (xs : List α) : (dedup xs).Nodup := by
  induction xs using List.reverseRecOn with
  | nil => exact List.nodup_nil
  | append_singleton xs x ih =>
    rw [dedup_concat]
    split_ifs with hx
    · exact ih
    · have hfresh : ∀ y ∈ dedup xs, ∀ z ∈ [x], y ≠ z := by
        rintro y hy z hz rfl
        exact hx (List.contains_iff_mem.mpr (List.mem_singleton.mp hz ▸ hy))
      exact List.nodup_append.mpr ⟨ih, List.pairwise_singleton _ x, hfresh⟩

/-- Texts behind the first one stand behind a separator each. -/
lemma joinWith_cons (separator s : List Char) (rest : List (List Char)) :
    joinWith separator (s :: rest) = s ++ rest.flatMap (separator ++ ·) := by
  induction rest generalizing s with
  | nil => simp [joinWith]
  | cons t rest ih => simp [joinWith, ih t]

/-- A stretch without the separator stands in front of it or behind it. -/
lemma separator_cases {c : Char} {a b u m v : List Char} (hm : c ∉ m) (h : a ++ c :: b = u ++ (m ++ v)) :
    (∃ v', a = u ++ (m ++ v')) ∨ (∃ u', b = u' ++ (m ++ v) ∧ u = a ++ c :: u') := by
  rcases List.append_eq_append_iff.mp h with ⟨behind, hu, hb⟩ | ⟨inner, ha, hmv⟩
  · cases behind with
    | nil =>
      cases m with
      | nil => exact .inl ⟨[], by simp [hu]⟩
      | cons d ds => exact absurd (List.cons.inj hb).1 fun hd => hm (hd ▸ List.mem_cons_self)
    | cons d u' =>
      obtain ⟨rfl, rfl⟩ := List.cons.inj hb
      exact .inr ⟨u', rfl, hu⟩
  · rcases List.append_eq_append_iff.mp hmv with ⟨rest, hinner, -⟩ | ⟨rest, hsplit, hb⟩
    · exact .inl ⟨rest, by rw [ha, hinner]⟩
    · cases rest with
      | nil => exact .inl ⟨[], by rw [ha, hsplit, List.append_nil, List.append_nil]⟩
      | cons d ds =>
        have hmem : d ∈ m := hsplit ▸ List.mem_append_right _ List.mem_cons_self
        exact absurd (List.cons.inj hb).1 fun hd => hm (hd ▸ hmem)

/-- A stretch without the separator occurs on one of its two sides, if at all. -/
lemma infix_append_cons_iff {c : Char} {a b m : List Char} (hm : c ∉ m) :
    m <:+: a ++ c :: b ↔ m <:+: a ∨ m <:+: b := by
  constructor
  · rintro ⟨u, v, h⟩
    rw [List.append_assoc] at h
    rcases separator_cases hm h.symm with ⟨v', rfl⟩ | ⟨u', rfl, -⟩
    · exact .inl ⟨u, v', by rw [List.append_assoc]⟩
    · exact .inr ⟨u', v, by rw [List.append_assoc]⟩
  · rintro (h | h)
    · exact h.trans (List.prefix_append _ _).isInfix
    · exact h.trans ⟨a ++ [c], [], by simp⟩

end Text

namespace Pattern

/-- Every match of the pattern ends at the end of a line. -/
def endsLine : Pattern → Bool
  | .anchor .lineEnd => true
  | .seq first .empty => first.endsLine
  | .seq _ second => second.endsLine
  | .alt preferred other => preferred.endsLine && other.endsLine
  | _ => false

variable {p : Pattern} {before after : Option Char} {w : List Char} {groups : Groups}

lemma after_of_endsLine (hp : p.endsLine = true) (h : p.Matches before w after groups) :
    after.all (· == '\n') = true := by
  fun_induction endsLine p generalizing before w after groups with
  | case1 =>
    obtain ⟨-, -, hholds⟩ := h
    cases after <;> exact hholds
  | case2 first ih =>
    obtain ⟨u, v, gu, gv, -, -, hu, rfl, -⟩ := h
    exact ih hp hu
  | case3 first second _ ih =>
    obtain ⟨u, v, gu, gv, -, -, -, hv⟩ := h
    exact ih hp hv
  | case4 preferred other ih₁ ih₂ =>
    obtain ⟨hp₁, hp₂⟩ := Bool.and_eq_true_iff.mp hp
    exact h.elim (ih₁ hp₁) (ih₂ hp₂)
  | case5 => cases hp

/-- The match stands somewhere behind a position. -/
def FoundBehind (p : Pattern) (c : Cursor) (m : Match) : Prop :=
  ∃ u w, c.Reads u m.start ∧ m.start.Reads w m.stop ∧ p.Matches m.start.before w m.stop.rest.head? m.groups

lemma FoundBehind.of_findFrom? {c : Cursor} {m : Match} (h : p.findFrom? c.rest c.before c.index = some m) :
    p.FoundBehind c m := by
  have hfinds : p.Finds Match.text c m := finds_of_findFrom?_eq_some h
  obtain ⟨u, w, hu, hw, hmatch, -⟩ := hfinds
  exact ⟨u, w, hu, hw, hmatch⟩

lemma FoundBehind.trans {c d : Cursor} {v : List Char} {m : Match} (hv : c.Reads v d) (h : p.FoundBehind d m) :
    p.FoundBehind c m := by
  obtain ⟨u, w, hu, hw, hmatch⟩ := h
  exact ⟨v ++ u, w, hv.trans hu, hw, hmatch⟩

lemma FoundBehind.of_next? {c : Cursor} {lastEnd : Option Nat} {m : Match} (h : p.next? c lastEnd = some m) :
    p.FoundBehind c m := by
  unfold next? at h
  split at h
  · cases h
  · rename_i found hfound
    split_ifs at h
    · split at h
      · cases h
      · rename_i x xs hrest
        exact .trans (Cursor.reads_cons hrest) (.of_findFrom? h)
    · exact .of_findFrom? (hfound.trans h)

lemma FoundBehind.of_mem {fuel : Nat} {c : Cursor} {lastEnd : Option Nat} {m : Match}
    (h : m ∈ p.matchesFrom fuel c lastEnd) : p.FoundBehind c m := by
  induction fuel generalizing c lastEnd with
  | zero => cases h
  | succ fuel ih =>
    rw [matchesFrom] at h
    cases hnext : p.next? c lastEnd with
    | none => simp [hnext] at h
    | some first =>
      rw [hnext] at h
      rcases List.mem_cons.mp h with rfl | h
      · exact .of_next? hnext
      · obtain ⟨u, w, hu, hw, -⟩ := FoundBehind.of_next? hnext
        exact .trans (hu.trans hw) (ih h)

/-- A match among all of a text covers a stretch of it, and ends where the pattern lets it end. -/
theorem split_of_mem_findAll {text : List Char} {m : Match} (h : m ∈ p.findAll text) :
    text = text.take m.stop.index ++ m.stop.rest ∧
      ∃ before w, p.Matches before w m.stop.rest.head? m.groups := by
  obtain ⟨u, w, hu, hw, hmatch⟩ := FoundBehind.of_mem h
  have hreads := hu.trans hw
  have hrest : text = (u ++ w) ++ m.stop.rest := hreads.rest
  have hindex : m.stop.index = (u ++ w).length := hreads.index.trans (Nat.zero_add _)
  refine ⟨?_, _, _, hmatch⟩
  rw [hindex]
  conv_rhs => rw [hrest, List.take_left]
  exact hrest

end Pattern

namespace ImportBlock

open Text (occursIn_iff)

lemma endsLine_importLine : importLine.endsLine = true := rfl

/-- The text in front of the place of insertion. -/
def front (text : List Char) : List Char :=
  match (importLine.findAll text).getLast? with
  | some last => text.take last.stop.index
  | none => []

/-- The lines in front of the inserted ones. -/
def above (text : List Char) : List Char :=
  match (importLine.findAll text).getLast? with
  | some last => text.take last.stop.index ++ ['\n']
  | none => []

/-- What stands behind the inserted lines. -/
def below (text : List Char) : List Char :=
  match (importLine.findAll text).getLast? with
  | some last => last.stop.rest
  | none => '\n' :: text

/-- The two places of insertion: behind an import line, which ends where a line does, and in front of the
text. -/
lemma place_cases (text : List Char) :
    (above text = front text ++ ['\n'] ∧ text = front text ++ below text ∧
      (below text).head?.all (· == '\n') = true) ∨
    (above text = [] ∧ front text = [] ∧ below text = '\n' :: text) := by
  unfold above below front
  cases hlast : (importLine.findAll text).getLast? with
  | none => exact .inr ⟨rfl, rfl, rfl⟩
  | some last =>
    obtain ⟨htext, before, w, hmatch⟩ := Pattern.split_of_mem_findAll (List.mem_of_getLast? hlast)
    exact .inl ⟨rfl, htext, Pattern.after_of_endsLine endsLine_importLine hmatch⟩

variable {text : List Char} {imports : List String} {first : String} {more : List String}

lemma mem_missing {statement : String} :
    statement ∈ missing text imports ↔ statement ∈ imports ∧ ¬ statement.toList <:+: text := by
  rw [missing, Text.mem_dedup, List.mem_filter, Bool.not_eq_true', ← Bool.not_eq_true, occursIn_iff]

/-- The missing statements stand between the lines above and below them. -/
theorem insert_eq (h : missing text imports = first :: more) :
    insert text imports = above text ++ (lines (first :: more) ++ below text) := by
  unfold insert above below
  rw [h]
  cases (importLine.findAll text).getLast? <;> simp

lemma lines_cons (first : String) (more : List String) :
    lines (first :: more) = first.toList ++ more.flatMap fun statement => '\n' :: statement.toList := by
  rw [lines, List.map_cons, Text.joinWith_cons, List.flatMap_map]
  rfl

lemma below_eq (text : List Char) : below text = [] ∨ ∃ rest, below text = '\n' :: rest ∧ rest <:+: text := by
  rcases place_cases text with ⟨-, htext, hline⟩ | ⟨-, -, hbelow⟩
  · cases hb : below text with
    | nil => exact .inl rfl
    | cons c rest =>
      rw [hb] at hline htext
      obtain rfl : c = '\n' := by simpa using hline
      exact .inr ⟨rest, rfl, front text ++ ['\n'], [], by simpa using htext.symm⟩
  · exact .inr ⟨text, hbelow, List.infix_rfl⟩

lemma tail_eq (text : List Char) (more : List String) :
    (more.flatMap fun statement => '\n' :: statement.toList) ++ below text = [] ∨
      ∃ rest, (more.flatMap fun statement => '\n' :: statement.toList) ++ below text = '\n' :: rest := by
  cases more with
  | nil => exact (below_eq text).imp id fun ⟨rest, hrest, _⟩ => ⟨rest, hrest⟩
  | cons statement more => exact .inr ⟨_, rfl⟩

/-- Below the first inserted line, a line of the result is another inserted one, or one of the text. -/
lemma occurrence_below {m u v : List Char} (hm : '\n' ∉ m) (hne : m ≠ [])
    (h : (more.flatMap fun statement => '\n' :: statement.toList) ++ below text = u ++ (m ++ v)) :
    (∃ statement ∈ more, m <:+: statement.toList) ∨ m <:+: text := by
  have hfirst : ∀ {b u : List Char}, '\n' :: b = u ++ (m ++ v) → ∃ u', b = u' ++ (m ++ v) := fun {b u} hb => by
    rcases Text.separator_cases (a := []) hm hb with ⟨v', hnil⟩ | ⟨u', hu', -⟩
    · simp [hne] at hnil
    · exact ⟨u', hu'⟩
  induction more generalizing u with
  | nil =>
    rcases below_eq text with hbelow | ⟨rest, hbelow, hrest⟩
    · simp [hbelow, hne] at h
    · rw [List.flatMap_nil, List.nil_append, hbelow] at h
      obtain ⟨u', hu'⟩ := hfirst h
      exact .inr (.trans ⟨u', v, by rw [hu', List.append_assoc]⟩ hrest)
  | cons statement more ih =>
    rw [List.flatMap_cons, List.append_assoc, List.cons_append] at h
    obtain ⟨u', hu'⟩ := hfirst h
    rcases tail_eq text more with htail | ⟨rest, htail⟩
    · rw [htail, List.append_nil] at hu'
      exact .inl ⟨statement, List.mem_cons_self, u', v, by rw [hu', List.append_assoc]⟩
    · rw [htail] at hu'
      rcases Text.separator_cases hm hu' with ⟨v', hstatement⟩ | ⟨u'', hrest, -⟩
      · exact .inl ⟨statement, List.mem_cons_self, u', v', by rw [hstatement, List.append_assoc]⟩
      · have hmore := ih (u := '\n' :: u'') (by rw [htail, hrest, List.cons_append])
        exact hmore.imp_left fun ⟨other, hother, hm⟩ => ⟨other, List.mem_cons_of_mem _ hother, hm⟩

/-- A missing statement of one line is found in the result only where it was inserted, if no other inserted
statement contains it. -/
theorem eq_above_of_occurrence (h : missing text imports = first :: more) (hline : '\n' ∉ first.toList)
    (hapart : ∀ statement ∈ more, ¬ first.toList <:+: statement.toList) {u v : List Char}
    (hu : insert text imports = u ++ (first.toList ++ v)) : u = above text := by
  have hmissing : ¬ first.toList <:+: text := (mem_missing.mp (h ▸ List.mem_cons_self)).2
  have hne : first.toList ≠ [] := fun hnil => hmissing (hnil ▸ List.nil_infix)
  rw [insert_eq h, lines_cons, List.append_assoc] at hu
  have hfirst : ∀ {u : List Char}, first.toList ++ ((more.flatMap fun statement => '\n' :: statement.toList) ++
      below text) = u ++ (first.toList ++ v) → u = [] := fun {u} hu => by
    rcases tail_eq text more with htail | ⟨rest, htail⟩
    · have hlength := congrArg List.length hu
      simp only [htail, List.length_append, List.length_nil] at hlength
      exact List.eq_nil_of_length_eq_zero (by omega)
    · rw [htail] at hu
      rcases Text.separator_cases hline hu with ⟨v', hsame⟩ | ⟨u', hrest, -⟩
      · have hlength := congrArg List.length hsame
        simp only [List.length_append] at hlength
        exact List.eq_nil_of_length_eq_zero (by omega)
      · rcases occurrence_below (u := '\n' :: u') hline hne (by rw [htail, hrest, List.cons_append]) with
          ⟨statement, hstatement, hoccurs⟩ | hoccurs
        · exact absurd hoccurs (hapart statement hstatement)
        · exact absurd hoccurs hmissing
  rcases place_cases text with ⟨habove, htext, -⟩ | ⟨habove, -, -⟩
  · rw [habove, List.append_assoc] at hu
    rcases Text.separator_cases hline hu with ⟨v', hfront⟩ | ⟨u', hrest, rfl⟩
    · have hoccurs : first.toList <:+: front text := ⟨u, v', by rw [hfront, List.append_assoc]⟩
      exact absurd (hoccurs.trans ⟨[], below text, htext.symm⟩) hmissing
    · rw [hfirst hrest, habove]
  · rw [habove, List.nil_append] at hu
    rw [hfirst hu, habove]

end ImportBlock

end SpaMigration
