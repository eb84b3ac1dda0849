import SpaMigration.Proofs.ImportItems
import SpaMigration.Proofs.ItemKinds

/-!
# Runs of items

A run is a text that is read as certain items whatever stands behind it. A text that starts with a run is a
program exactly when the rest is one, and what it declares is what the two declare. Gaps and closed items are
runs, and so are runs one after another.
-/
namespace SpaMigration.Syntax

open Text (byteSize slice? slice?_eq_some_iff)

variable {dialect : Dialect} {s front text rest gap body : List Char} {items others all : List Node} {item : Node}
  {place last : Token.Place} {offset : Nat}

/-! ## Reading to the end -/

lemma afterGap?_of_skipGap {mode : Token.Gap} {line newline : Bool}
    (h : Token.skipGap mode s offset line = some (place, newline)) : afterGap? place.1 = some place.1 := by
  fun_induction Token.skipGap mode s offset line with
  | case5 c rest offset line hline hblock hterminator hblank =>
    cases h
    rw [afterGap?, Token.skipGap, if_neg hterminator, if_neg hblank]
    · rfl
    · exact hline
    · exact hblock
  | case10 => cases h
  | case11 =>
    cases h
    rfl
  | _ => simp_all

/-- Nothing is left to skip behind a gap. -/
lemma afterGap?_self (h : afterGap? s = some text) : afterGap? text = some text := by
  obtain ⟨⟨place, newline⟩, hskip, rfl⟩ := Option.map_eq_some_iff.mp h
  exact afterGap?_of_skipGap hskip

/-- The text is read as these items up to a gap at its end. -/
def ReadsAll (dialect : Dialect) (text : List Char) (items : List Node) : Prop :=
  ∃ last, Reads dialect (text, 0) items last ∧ afterGap? last.1 = some []

lemma Reads.unshift (h : Reads dialect place items last) : ∃ others place', Reads dialect (place.1, 0) others place' ∧
    items = Node.shiftAll place.2 others ∧ place'.1 = last.1 := by
  induction h with
  | done place => exact ⟨[], (place.1, 0), .done _, rfl, rfl⟩
  | @item gap body rest offset item items last hgap hne hitem hsound _ ih =>
    obtain ⟨others, place', hothers, rfl, hlast⟩ := ih
    have hshifted := hothers.shift (0 + byteSize gap + byteSize body)
    refine ⟨_, _, .item hgap hne hitem hsound hshifted, ?_, hlast⟩
    simp only [Node.shiftAll, Node.shift_shift, Node.shiftAll_shiftAll, Nat.zero_add, Nat.add_assoc]

/-- Where a text stands only matters for the offsets of its items. -/
lemma exists_reads_iff : (∃ last, Reads dialect (s, offset) all last ∧ afterGap? last.1 = some []) ↔
    ∃ others, ReadsAll dialect s others ∧ all = Node.shiftAll offset others := by
  constructor
  · rintro ⟨last, hreads, hend⟩
    obtain ⟨others, place, hothers, rfl, hplace⟩ := hreads.unshift
    exact ⟨others, ⟨place, hothers, hplace ▸ hend⟩, rfl⟩
  · rintro ⟨others, ⟨⟨behind, bytes⟩, hothers, hend⟩, rfl⟩
    exact ⟨_, hothers.shift offset, hend⟩

/-! ## Runs -/

/-- The text is read as these items, whatever stands behind it. -/
def IsRun (dialect : Dialect) (front : List Char) (items : List Node) : Prop :=
  ∀ text all, ReadsAll dialect (front ++ text) all ↔
    ∃ others, ReadsAll dialect text others ∧ all = items ++ Node.shiftAll (byteSize front) others

lemma shiftAll_append (bytes : Nat) (items others : List Node) :
    Node.shiftAll bytes (items ++ others) = Node.shiftAll bytes items ++ Node.shiftAll bytes others := by
  simp only [Node.shiftAll_eq_map, List.map_append]

lemma IsRun.append {back : List Char} {more : List Node} (h : IsRun dialect front items)
    (hback : IsRun dialect back more) :
    IsRun dialect (front ++ back) (items ++ Node.shiftAll (byteSize front) more) := by
  intro text all
  rw [List.append_assoc, h]
  constructor
  · rintro ⟨others, hothers, rfl⟩
    obtain ⟨behind, hbehind, rfl⟩ := (hback text others).mp hothers
    refine ⟨behind, hbehind, ?_⟩
    rw [shiftAll_append, Node.shiftAll_shiftAll, Text.byteSize_append, List.append_assoc]
  · rintro ⟨behind, hbehind, rfl⟩
    refine ⟨_, (hback text _).mpr ⟨behind, hbehind, rfl⟩, ?_⟩
    rw [shiftAll_append, Node.shiftAll_shiftAll, Text.byteSize_append, List.append_assoc]

/-- The text is skipped, whatever stands behind it. -/
def IsGap (gap : List Char) : Prop := ∀ text, afterGap? (gap ++ text) = afterGap? text

lemma isGap_nil : IsGap [] := fun _ => rfl

lemma isGap_newline : IsGap ['\n'] := fun text => map_skipGap .code text _ _ _ _

lemma IsGap.append {gap gap' : List Char} (h : IsGap gap) (h' : IsGap gap') : IsGap (gap ++ gap') := fun text => by
  rw [List.append_assoc, h, h']

lemma exists_reads_gap_iff (hgap : afterGap? (gap ++ text) = afterGap? text) :
    (∃ last, Reads dialect (gap ++ text, offset) all last ∧ afterGap? last.1 = some []) ↔
      ∃ last, Reads dialect (text, offset + byteSize gap) all last ∧ afterGap? last.1 = some [] := by
  constructor
  · rintro ⟨last, hreads, hend⟩
    generalize hplace : (gap ++ text, offset) = place at hreads
    cases hreads with
    | done =>
      rw [← hplace, hgap] at hend
      exact ⟨_, .done _, hend⟩
    | @item skipped body rest _ item items _ hskip hne hitem hsound hrest =>
      obtain ⟨htext, rfl⟩ := Prod.mk.inj hplace
      rw [← htext, hgap] at hskip
      obtain ⟨behind, rfl⟩ := exists_of_afterGap? hskip
      obtain rfl : gap ++ behind = skipped := by
        rw [← List.append_assoc] at htext
        exact List.append_cancel_right htext
      rw [Text.byteSize_append, ← Nat.add_assoc] at hrest ⊢
      exact ⟨last, .item hskip hne hitem hsound hrest, hend⟩
  · rintro ⟨last, hreads, hend⟩
    generalize hplace : (text, offset + byteSize gap) = place at hreads
    cases hreads with
    | done =>
      rw [← hplace, ← hgap] at hend
      exact ⟨_, .done _, hend⟩
    | @item skipped body rest _ item items _ hskip hne hitem hsound hrest =>
      obtain ⟨rfl, rfl⟩ := Prod.mk.inj hplace
      rw [← hgap, ← List.append_assoc] at hskip
      rw [← List.append_assoc]
      rw [Nat.add_assoc offset, ← Text.byteSize_append] at hrest ⊢
      exact ⟨last, .item hskip hne hitem hsound hrest, hend⟩

/-- Gaps are runs of no items. -/
lemma IsGap.isRun (h : IsGap gap) : IsRun dialect gap [] := by
  intro text all
  rw [ReadsAll, exists_reads_gap_iff (h text), Nat.zero_add, exists_reads_iff]
  rfl

/-- Closed items are runs. -/
lemma IsClosed.isRun (h : IsClosed dialect body item) : IsRun dialect body [item] := by
  intro text all
  have hsound := isSound_append_right h.sound text
  have hfirst : ∀ {others last}, Reads dialect (text, byteSize body) others last →
      Reads dialect (body ++ text, 0) (item :: others) last := fun {others last} hothers => by
    have hreads : Reads dialect ([] ++ (body ++ text), 0) (item.shift (0 + byteSize []) :: others) last :=
      .item (h.gap text) (by simp [h.ne_nil]) (h.read text) hsound
        (by rwa [Text.byteSize_nil, Nat.add_zero, Nat.zero_add])
    rwa [Text.byteSize_nil, Nat.add_zero, Node.shift_zero] at hreads
  constructor
  · rintro ⟨last, hall, hend⟩
    obtain ⟨others, rfl, hothers⟩ := (hfirst (.done _)).split hall hend
    obtain ⟨behind, hbehind, rfl⟩ := exists_reads_iff.mp ⟨last, hothers, hend⟩
    exact ⟨behind, hbehind, rfl⟩
  · rintro ⟨others, hothers, rfl⟩
    obtain ⟨last, hreads, hend⟩ := exists_reads_iff.mpr ⟨others, hothers, rfl⟩
    exact ⟨last, hfirst hreads, hend⟩

/-! ## Declarations of imports -/

/-- The item is an import declaration. -/
def isImport (item : Node) : Bool :=
  match item.kind with
  | .importDeclaration _ => true
  | _ => false

lemma isImport_shift (bytes : Nat) (item : Node) : isImport (item.shift bytes) = isImport item := by
  rw [isImport, Node.kind_shift, isImport]

lemma isOther_iff : IsOther item ↔ isImport item = false := by
  unfold IsOther isImport
  cases item.kind <;> simp

/-- One of the items is an import declaration that is written like this. -/
def Declares (text : List Char) (items : List Node) (statement : List Char) : Prop :=
  ∃ item ∈ items, isImport item = true ∧ slice? text item.span.lo item.span.hi = some statement

lemma ReadsAll.isSound (h : ReadsAll dialect text items) : isSound dialect text items = true := by
  obtain ⟨last, hreads, hend⟩ := h
  have hstart : byteSize [] = ((text, 0) : Token.Place).2 := rfl
  exact (hreads.itemsFrom_eq hend (Nat.le_refl _) hstart).2

lemma IsRun.readsAll (h : IsRun dialect front items) : ReadsAll dialect front items := by
  have hnil : ReadsAll dialect [] [] := ⟨([], 0), .done _, rfl⟩
  have hfront := (h [] items).mpr ⟨[], hnil, (List.append_nil items).symm⟩
  rwa [List.append_nil] at hfront

/-- Behind other text, a text declares what it does by itself. -/
lemma declares_shiftAll {statement : List Char} (front : List Char) :
    Declares (front ++ text) (Node.shiftAll (byteSize front) others) statement ↔ Declares text others statement := by
  simp only [Declares, Node.shiftAll_eq_map, List.mem_map, exists_exists_and_eq_and, isImport_shift,
    Node.span_shift, Text.slice?_append_left]

lemma declares_append_right {statement : List Char} (h : isSound dialect front items = true) (text : List Char) :
    Declares (front ++ text) items statement ↔ Declares front items statement := by
  refine exists_congr fun item => and_congr_right fun hitem => and_congr_right fun _ => ?_
  have hfits := (Bool.and_eq_true_iff.mp (List.all_eq_true.mp h item (Node.subset_nodesOf items hitem))).1
  obtain ⟨found, hfound⟩ := Option.isSome_iff_exists.mp hfits
  rw [Text.slice?_append_right hfound, hfound]

/-- A run and the rest of a program declare what the program does. -/
theorem IsRun.declares_iff {statement : List Char} (h : IsRun dialect front items) :
    Declares (front ++ text) (items ++ Node.shiftAll (byteSize front) others) statement ↔
      Declares front items statement ∨ Declares text others statement := by
  have hfront : Declares (front ++ text) items statement ↔ Declares front items statement :=
    declares_append_right h.readsAll.isSound text
  have hrest : Declares (front ++ text) (Node.shiftAll (byteSize front) others) statement ↔
      Declares text others statement := declares_shiftAll front
  rw [← hfront, ← hrest]
  simp only [Declares, List.mem_append, or_and_right, exists_or]

/-! ## Arriving at a place -/

/-- Reading the text item after item comes to what is given, with nothing left to skip in front of it. -/
def Arrives (dialect : Dialect) (text rest : List Char) : Prop :=
  ∃ items place, Reads dialect (skipInterpreterLine (dropMark text)) items place ∧ afterGap? place.1 = some rest

/-- Where the reading of a program arrives, the rest of it is read by itself. -/
lemma Arrives.exists_rest (h : Arrives dialect text rest) (hparse : parse? dialect text = some all) :
    ∃ front items others, dropMark text = front ++ rest ∧ ReadsAll dialect rest others ∧
      all = items ++ Node.shiftAll (byteSize front) others := by
  obtain ⟨items, ⟨behind, offset⟩, hreads, hgap⟩ := h
  obtain ⟨-, last, hall, hend⟩ := parse?_eq_some_iff.mp hparse
  obtain ⟨line, start, htext, hline⟩ := skipInterpreterLine_eq (dropMark text)
  rw [hline] at hreads hall
  obtain ⟨u, hu, hoffset⟩ : ∃ u, start = u ++ behind ∧ offset = byteSize line + byteSize u :=
    hreads.exists_append
  obtain ⟨others, rfl, hothers⟩ := hreads.split hall hend
  obtain ⟨gap, rfl⟩ := exists_of_afterGap? hgap
  have hrest : afterGap? (gap ++ rest) = afterGap? rest := hgap.trans (afterGap?_self hgap).symm
  obtain ⟨behind, hbehind, rfl⟩ := exists_reads_iff.mp ((exists_reads_gap_iff hrest).mp ⟨last, hothers, hend⟩)
  have hbytes : offset + byteSize gap = byteSize (line ++ (u ++ gap)) := by
    simp only [hoffset, Text.byteSize_append]
    omega
  refine ⟨line ++ (u ++ gap), items, behind, ?_, hbehind, by rw [hbytes]⟩
  simp only [htext, hu, List.append_assoc]

lemma Reads.exists_of_mem (h : Reads dialect place items last) (hitem : item ∈ items) :
    ∃ first gap rest offset found count, Reads dialect place first (gap ++ rest, offset) ∧
      afterGap? (gap ++ rest) = some rest ∧ item? dialect rest = some (found, count) ∧
      item = found.shift (offset + byteSize gap) := by
  induction h with
  | done => cases hitem
  | @item gap body rest offset found items last hgap hne hread hsound hrest ih =>
    rcases List.mem_cons.mp hitem with rfl | hitem
    · exact ⟨[], gap, _, offset, found, _, .done _, hgap, hread, rfl⟩
    · obtain ⟨first, gap', rest', offset', found', count, hfirst, hfound⟩ := ih hitem
      exact ⟨_, gap', rest', offset', found', count, .item hgap hne hread hsound hfirst, hfound⟩

/-- The reading of a program arrives at each import declaration of it. -/
lemma arrives_of_mem (hparse : parse? dialect text = some all) (hitem : item ∈ all) (himport : isImport item = true) :
    ∃ front rest, dropMark text = front ++ rest ∧ byteSize front = item.span.lo ∧ Arrives dialect text rest := by
  obtain ⟨-, last, hall, -⟩ := parse?_eq_some_iff.mp hparse
  obtain ⟨first, gap, rest, offset, found, count, hfirst, hgap, hread, rfl⟩ := hall.exists_of_mem hitem
  have harrives : Arrives dialect text rest := ⟨first, _, hfirst, hgap⟩
  obtain ⟨line, start, htext, hline⟩ := skipInterpreterLine_eq (dropMark text)
  rw [hline] at hfirst
  obtain ⟨u, hu, hoffset⟩ : ∃ u, start = u ++ (gap ++ rest) ∧ offset = byteSize line + byteSize u :=
    hfirst.exists_append
  -- An import declaration has nothing in front of its first token.
  have hlo : found.span.lo = 0 := by
    rcases lo_of_item? (afterGap?_self hgap) hread with hother | hlo
    · rw [isImport_shift, isOther_iff.mp hother] at himport
      cases himport
    · exact hlo
  refine ⟨line ++ (u ++ gap), rest, ?_, ?_, harrives⟩
  · simp only [htext, hu, List.append_assoc]
  · simp only [Node.span_shift, hlo, hoffset, Text.byteSize_append]
    omega

end SpaMigration.Syntax
