import SpaMigration.Edit
import SpaMigration.Proofs.TextCuts

/-!
# What a pass of edits does to a text

The pass over the text applies some of the edits, in order, and drops the others. `Spliced` says what the
applied ones do: the ranges are replaced, and what stands between them is kept as it is and where it is.
The pass never fails when every edit covers whole characters.
-/
namespace SpaMigration.Edit

open Text

/-- The edit covers whole characters of the text. -/
def Fits (text : List Char) (edit : Edit) : Prop := (slice? text edit.lo edit.hi).isSome

lemma Fits.le {text : List Char} {edit : Edit} (h : edit.Fits text) : edit.lo ≤ edit.hi :=
  (slice?_isSome_iff.mp h).2.2

lemma Fits.hi_le {text : List Char} {edit : Edit} (h : edit.Fits text) : edit.hi ≤ byteSize text :=
  (slice?_isSome_iff.mp h).2.1.le_byteSize

/-- The text that stands from the byte `place` on becomes another one: exactly the ranges of the edits are
replaced, from left to right, and everything between them is kept. -/
inductive Spliced : Nat → List Char → List Edit → List Char → Prop
  | done (place : Nat) (rest : List Char) : Spliced place rest [] rest
  | replace {place : Nat} {edit : Edit} {edits : List Edit} (kept cut : List Char)
      {rest result : List Char} (hlo : edit.lo = place + byteSize kept)
      (hhi : edit.hi = edit.lo + byteSize cut) (h : Spliced edit.hi rest edits result) :
      Spliced place (kept ++ cut ++ rest) (edit :: edits) (kept ++ edit.text ++ result)

/-- Ranges that are replaced lie in the text and come one after another without overlap. -/
theorem Spliced.ranges {place : Nat} {rest result : List Char} {edits : List Edit}
    (h : Spliced place rest edits result) :
    (∀ edit ∈ edits, place ≤ edit.lo ∧ edit.lo ≤ edit.hi ∧ edit.hi ≤ place + byteSize rest) ∧
    edits.Pairwise (fun a b => a.hi ≤ b.lo) := by
  induction h with
  | done => simp
  | replace kept cut hlo hhi _ ih =>
    obtain ⟨hin, hpair⟩ := ih
    refine ⟨?_, List.pairwise_cons.mpr ⟨fun later hl => (hin later hl).1, hpair⟩⟩
    intro edit he
    simp only [byteSize_append]
    rcases List.mem_cons.mp he with rfl | he
    · omega
    · have hrest := hin edit he
      omega

/-- The edits that the pass applies behind a cursor, in a text of `size` bytes. -/
def applied (size : Nat) : Nat → List Edit → List Edit
  | _, [] => []
  | cursor, edit :: rest =>
    if edit.lo < cursor || size < edit.hi then applied size cursor rest
    else edit :: applied size edit.hi rest

lemma applied_sublist (size cursor : Nat) (edits : List Edit) :
    (applied size cursor edits).Sublist edits := by
  induction edits generalizing cursor with
  | nil => simp [applied]
  | cons edit rest ih =>
    simp only [applied]
    split_ifs
    · exact (ih cursor).cons _
    · exact (ih edit.hi).cons_cons _

/-- The pass succeeds on edits of whole characters, and does what the edits that it applies say. -/
theorem applySorted?_spliced {text before rest : List Char} {edits : List Edit}
    (htext : text = before ++ rest) (hfits : ∀ edit ∈ edits, edit.Fits text) :
    ∃ result, applySorted? text (byteSize before) edits = some result ∧
      Spliced (byteSize before) rest (applied (byteSize text) (byteSize before) edits) result := by
  induction edits generalizing before rest with
  | nil => exact ⟨rest, by simp [applySorted?, htext, splitAtByte?_append], .done _ _⟩
  | cons edit edits ih =>
    have hedit : edit.Fits text := hfits edit List.mem_cons_self
    have hfits' : ∀ other ∈ edits, other.Fits text := fun other ho =>
      hfits other (List.mem_cons_of_mem _ ho)
    by_cases hdrop : edit.lo < byteSize before || byteSize text < edit.hi
    · obtain ⟨result, hresult, hspliced⟩ := ih htext hfits'
      exact ⟨result, by rwa [applySorted?, if_pos hdrop], by rwa [applied, if_pos hdrop]⟩
    · have hlo : byteSize before ≤ edit.lo := by
        simp only [Bool.or_eq_true, decide_eq_true_eq] at hdrop
        omega
      -- The edit cuts what is left of the text into a kept part, the range, and the rest.
      obtain ⟨cut, hcut⟩ := Option.isSome_iff_exists.mp hedit
      obtain ⟨upTo, behind, hsplit, hupTo, hhi⟩ := slice?_eq_some_iff.mp hcut
      have hmeet : before ++ rest = upTo ++ (cut ++ behind) := by
        rw [← htext, hsplit, List.append_assoc]
      obtain ⟨kept, rfl, hrest⟩ := exists_append_of_byteSize_le hmeet (by omega)
      have hkept : slice? text (byteSize before) edit.lo = some kept :=
        slice?_eq_some_iff.mpr ⟨before, cut ++ behind, by rw [hsplit, List.append_assoc], rfl, hupTo⟩
      obtain ⟨result, hresult, hspliced⟩ := ih hsplit hfits'
      rw [hhi] at hresult hspliced
      refine ⟨kept ++ edit.text ++ result, ?_, ?_⟩
      · rw [applySorted?, if_neg hdrop, hkept, hresult]
        rfl
      · rw [applied, if_neg hdrop, hrest, ← List.append_assoc]
        refine .replace kept cut ?_ ?_ hspliced
        · rw [← hupTo, byteSize_append]
        · rw [← hhi, byteSize_append, hupTo]

lemma insert_perm (edit : Edit) (edits : List Edit) : (insert edit edits).Perm (edit :: edits) := by
  induction edits with
  | nil => exact .refl _
  | cons other rest ih =>
    simp only [insert]
    split_ifs
    · exact .refl _
    · exact (ih.cons other).trans (.swap edit other rest)

theorem sort_perm (edits : List Edit) : (sort edits).Perm edits := by
  induction edits with
  | nil => exact .refl _
  | cons edit rest ih => exact (insert_perm edit (sort rest)).trans (ih.cons edit)

/-- Applying edits of whole characters succeeds; those that are applied are some of the edits given. -/
theorem applyAll?_spliced {text : List Char} {edits : List Edit}
    (hfits : ∀ edit ∈ edits, edit.Fits text) :
    ∃ result, applyAll? text edits = some result ∧
      Spliced 0 text (applied (byteSize text) 0 (sort edits)) result := by
  have htext : text = [] ++ text := rfl
  exact applySorted?_spliced htext fun edit he => hfits edit ((sort_perm edits).mem_iff.mp he)

lemma mem_of_mem_applied_sort {size cursor : Nat} {edit : Edit} {edits : List Edit}
    (h : edit ∈ applied size cursor (sort edits)) : edit ∈ edits :=
  (sort_perm edits).mem_iff.mp ((applied_sublist size cursor (sort edits)).mem h)

/-- The ranges of the edits do not overlap. -/
def Apart (a b : Edit) : Prop := a.hi ≤ b.lo ∨ b.hi ≤ a.lo

lemma insert_sorted {edit : Edit} {edits : List Edit} (h : edits.Pairwise (fun a b => a.notAfter b)) :
    (insert edit edits).Pairwise (fun a b => a.notAfter b) := by
  induction edits with
  | nil => simp [insert]
  | cons other rest ih =>
    obtain ⟨hother, hrest⟩ := List.pairwise_cons.mp h
    simp only [insert]
    split_ifs with hle
    · refine List.pairwise_cons.mpr ⟨fun later hl => ?_, h⟩
      rcases List.mem_cons.mp hl with rfl | hl
      · exact hle
      · have hlater := hother later hl
        simp only [notAfter, Bool.or_eq_true, Bool.and_eq_true, decide_eq_true_eq, beq_iff_eq]
          at hle hlater ⊢
        omega
    · refine List.pairwise_cons.mpr ⟨fun later hl => ?_, ih hrest⟩
      rcases List.mem_cons.mp ((insert_perm edit rest).mem_iff.mp hl) with rfl | hl
      · simp only [notAfter, Bool.or_eq_true, Bool.and_eq_true, decide_eq_true_eq, beq_iff_eq] at hle ⊢
        omega
      · exact hother later hl

lemma sort_sorted (edits : List Edit) : (sort edits).Pairwise (fun a b => a.notAfter b) := by
  induction edits with
  | nil => exact .nil
  | cons edit rest ih => exact insert_sorted ih

/-- An edit that is dropped starts in front of the cursor or inside an edit that is applied. -/
lemma mem_applied_or_inside {size cursor : Nat} {edits : List Edit}
    (hsorted : edits.Pairwise (fun a b => a.notAfter b)) (hsize : ∀ edit ∈ edits, edit.hi ≤ size)
    {edit : Edit} (h : edit ∈ edits) :
    edit ∈ applied size cursor edits ∨ edit.lo < cursor ∨
      ∃ other ∈ applied size cursor edits, other.lo ≤ edit.lo ∧ edit.lo < other.hi := by
  induction edits generalizing cursor with
  | nil => simp at h
  | cons first rest ih =>
    obtain ⟨hfirst, hrest⟩ := List.pairwise_cons.mp hsorted
    have hsizeRest : ∀ other ∈ rest, other.hi ≤ size := fun other ho =>
      hsize other (List.mem_cons_of_mem _ ho)
    have hsizeFirst := hsize first List.mem_cons_self
    simp only [applied, Bool.or_eq_true, decide_eq_true_eq]
    split_ifs with hdrop
    · rcases List.mem_cons.mp h with rfl | hmem
      · exact .inr (.inl (by omega))
      · exact ih hrest hsizeRest hmem
    · rcases List.mem_cons.mp h with rfl | hmem
      · exact .inl List.mem_cons_self
      · rcases ih hrest hsizeRest hmem with happlied | hlt | ⟨other, hother, hinside⟩
        · exact .inl (List.mem_cons_of_mem _ happlied)
        · have horder := hfirst edit hmem
          simp only [notAfter, Bool.or_eq_true, Bool.and_eq_true, decide_eq_true_eq, beq_iff_eq] at horder
          exact .inr (.inr ⟨first, List.mem_cons_self, by omega, hlt⟩)
        · exact .inr (.inr ⟨other, List.mem_cons_of_mem _ hother, hinside⟩)

/-- Every edit is applied, or it starts inside one that is. -/
theorem mem_applied_sort_or_inside {text : List Char} {edits : List Edit}
    (hfits : ∀ edit ∈ edits, edit.Fits text) {edit : Edit} (h : edit ∈ edits) :
    edit ∈ applied (byteSize text) 0 (sort edits) ∨
      ∃ other ∈ applied (byteSize text) 0 (sort edits), other.lo ≤ edit.lo ∧ edit.lo < other.hi := by
  have hsize : ∀ edit ∈ sort edits, edit.hi ≤ byteSize text := fun edit he =>
    (hfits edit ((sort_perm edits).mem_iff.mp he)).hi_le
  rcases mem_applied_or_inside (sort_sorted edits) hsize ((sort_perm edits).mem_iff.mpr h) with
    happlied | hlt | hinside
  · exact .inl happlied
  · omega
  · exact .inr hinside

/-- Behind a cursor nothing is dropped exactly when each edit starts where those before it have ended. -/
lemma applied_eq_self_iff {size cursor : Nat} {edits : List Edit}
    (h : ∀ edit ∈ edits, edit.lo ≤ edit.hi ∧ edit.hi ≤ size) :
    applied size cursor edits = edits ↔
      (∀ edit ∈ edits, cursor ≤ edit.lo) ∧ edits.Pairwise (fun a b => a.hi ≤ b.lo) := by
  induction edits generalizing cursor with
  | nil => simp [applied]
  | cons edit rest ih =>
    have hedit := h edit List.mem_cons_self
    have hrest : ∀ other ∈ rest, other.lo ≤ other.hi ∧ other.hi ≤ size := fun other ho =>
      h other (List.mem_cons_of_mem _ ho)
    simp only [applied, Bool.or_eq_true, decide_eq_true_eq]
    split_ifs with hdrop
    · constructor
      · intro heq
        have hlen := (applied_sublist size cursor rest).length_le
        rw [heq, List.length_cons] at hlen
        omega
      · rintro ⟨hcursor, _⟩
        have := hcursor edit List.mem_cons_self
        omega
    · rw [List.cons.injEq, ih hrest, List.pairwise_cons]
      constructor
      · rintro ⟨_, hbehind, hpair⟩
        refine ⟨fun other ho => ?_, hbehind, hpair⟩
        rcases List.mem_cons.mp ho with rfl | ho
        · omega
        · have := hbehind other ho
          omega
      · rintro ⟨_, hpair⟩
        exact ⟨rfl, hpair⟩

/-- All edits are applied, each of them once, exactly when no two of their ranges overlap. -/
theorem applied_sort_perm_iff {text : List Char} {edits : List Edit}
    (hfits : ∀ edit ∈ edits, edit.Fits text) :
    (applied (byteSize text) 0 (sort edits)).Perm edits ↔ edits.Pairwise Apart := by
  have hbounds : ∀ edit ∈ sort edits, edit.lo ≤ edit.hi ∧ edit.hi ≤ byteSize text := fun edit he =>
    have hedit := hfits edit ((sort_perm edits).mem_iff.mp he)
    ⟨hedit.le, hedit.hi_le⟩
  have happlied : (applied (byteSize text) 0 (sort edits)).Perm edits ↔
      applied (byteSize text) 0 (sort edits) = sort edits := by
    constructor
    · intro hperm
      exact (applied_sublist _ _ _).eq_of_length (hperm.length_eq.trans (sort_perm edits).length_eq.symm)
    · intro heq
      rw [heq]
      exact sort_perm edits
  have hsymm : ∀ {a b : Edit}, Apart a b → Apart b a := Or.symm
  have hsorted : (sort edits).Pairwise (fun a b => a.hi ≤ b.lo) ↔ (sort edits).Pairwise Apart := by
    constructor
    · exact fun h => h.imp Or.inl
    · intro h
      -- In order, the later of two edits can only end before the other one when both are empty.
      refine ((sort_sorted edits).and h).imp_of_mem fun {a b} ha hb hab => ?_
      obtain ⟨hle, hapart⟩ := hab
      have ha := (hbounds a ha).1
      have hb := (hbounds b hb).1
      simp only [notAfter, Bool.or_eq_true, Bool.and_eq_true, decide_eq_true_eq, beq_iff_eq] at hle
      rcases hapart with hapart | hapart <;> omega
  rw [happlied, applied_eq_self_iff hbounds, hsorted, (sort_perm edits).pairwise_iff hsymm]
  exact and_iff_right fun edit _ => Nat.zero_le edit.lo

end SpaMigration.Edit
