import Mathlib.Data.List.TakeWhile
import Mathlib.Tactic.Common
import SpaMigration.Disk.Path

/-!
# Where paths lead

A path that is joined to a directory leads from there along its own names. A path that stays below: it
does not start at the root and has no name that leads up. Such a path leads from every directory to a
location inside it, and equal names lead to equal locations.
-/
namespace SpaMigration

namespace Text

lemma dropPrefix?_eq_some_iff {start s rest : List Char} :
    dropPrefix? start s = some rest ↔ s = start ++ rest := by
  induction start generalizing s with
  | nil => simp [dropPrefix?, eq_comm]
  | cons p ps ih =>
    cases s with
    | nil => simp [dropPrefix?]
    | cons c cs =>
      by_cases hc : p = c
      · simp [dropPrefix?, hc, ih]
      · simp [dropPrefix?, hc, Ne.symm hc]

lemma dropSuffix?_eq_some_iff {ending s before : List Char} :
    dropSuffix? ending s = some before ↔ s = before ++ ending := by
  simp only [dropSuffix?, Option.map_eq_some_iff, dropPrefix?_eq_some_iff]
  constructor
  · rintro ⟨rest, hs, rfl⟩
    rw [← List.reverse_reverse s, hs, List.reverse_append, List.reverse_reverse]
  · rintro rfl
    exact ⟨before.reverse, by simp, by simp⟩

lemma startsWith_iff {s start : List Char} : startsWith s start = true ↔ start <+: s := by
  simp only [startsWith, Option.isSome_iff_exists, dropPrefix?_eq_some_iff]
  exact ⟨fun ⟨rest, h⟩ => ⟨rest, h.symm⟩, fun ⟨rest, h⟩ => ⟨rest, h.symm⟩⟩

lemma endsWith_iff {s ending : List Char} : endsWith s ending = true ↔ ending <:+ s := by
  rw [endsWith, startsWith_iff, List.reverse_prefix]

lemma splitLast?_eq_some {c : Char} {s before after : List Char}
    (h : splitLast? c s = some (before, after)) : s = before ++ c :: after := by
  simp only [splitLast?] at h
  split at h
  · simp at h
  case _ d ds hdrop =>
    have hne : s.reverse.dropWhile (· != c) ≠ [] := by simp [hdrop]
    have hd : d = c := by simpa [hdrop] using List.head_dropWhile_not (· != c) hne
    have hsplit := List.takeWhile_append_dropWhile (p := (· != c)) (l := s.reverse)
    rw [hdrop, hd] at hsplit
    simp only [Option.some.injEq, Prod.mk.injEq] at h
    rw [← h.1, ← h.2]
    simpa using congrArg List.reverse hsplit.symm

lemma splitOn_ne_nil (c : Char) (s : List Char) : splitOn c s ≠ [] := by
  cases s with
  | nil => simp [splitOn]
  | cons d ds =>
    simp only [splitOn]
    split_ifs
    · simp
    · split <;> simp

/-- A separator parts the pieces of what stands in front of it from the pieces of what follows. -/
theorem splitOn_append_cons (c : Char) (s t : List Char) :
    splitOn c (s ++ c :: t) = splitOn c s ++ splitOn c t := by
  induction s with
  | nil => simp [splitOn]
  | cons d ds ih =>
    by_cases hd : d = c
    · simp [splitOn, hd, ih]
    · simp only [List.cons_append, splitOn, hd, if_false, ih]
      obtain ⟨piece, pieces, h⟩ := List.exists_cons_of_ne_nil (splitOn_ne_nil c ds)
      simp [h]

end Text

namespace DiskPath

open Text

/-- The path starts at the root. -/
def IsAbsolute (path : String) : Prop := ['/'] <+: path.toList

instance (path : String) : Decidable (IsAbsolute path) := inferInstanceAs (Decidable (_ <+: _))

/-- The path stays below the directory that it is joined to. -/
structure IsConfined (path : String) : Prop where
  relative : ¬ IsAbsolute path
  descends : ".." ∉ names path

instance (path : String) : Decidable (IsConfined path) :=
  decidable_of_iff (¬ IsAbsolute path ∧ ".." ∉ names path)
    ⟨fun h => ⟨h.1, h.2⟩, fun h => ⟨h.relative, h.descends⟩⟩

lemma start_eq (path : String) : start path = if IsAbsolute path then ["/"] else [] := by
  by_cases h : IsAbsolute path
  · rw [start, if_pos (startsWith_iff.mpr h), if_pos h]
  · rw [start, if_neg (fun hs => h (startsWith_iff.mp hs)), if_neg h]

/-- A slash parts the names in front of it from the names behind it. -/
theorem names_append_slash (s t : List Char) :
    names (String.ofList (s ++ '/' :: t)) = names (String.ofList s) ++ names (String.ofList t) := by
  simp [names, ProjectPath.segments, splitOn_append_cons]

lemma names_append_slash_end (s : List Char) :
    names (String.ofList (s ++ ['/'])) = names (String.ofList s) := by
  rw [names_append_slash]
  exact List.append_nil _

/-- A path that does not start at the root adds its names to those of the directory. -/
theorem names_join {path : String} (h : ¬ IsAbsolute path) (directory : String) :
    names (join directory path) = names directory ++ names path := by
  have hroot : startsWith path.toList ['/'] = false := by
    simpa [IsAbsolute, ← startsWith_iff] using h
  simp only [join, hroot, Bool.false_or]
  split_ifs with hempty hslash
  · rw [String.isEmpty_iff.mp hempty]
    rfl
  · obtain ⟨s, hs⟩ := endsWith_iff.mp hslash
    have hd : directory = String.ofList (s ++ ['/']) := by rw [hs, String.ofList_toList]
    have hpath : directory ++ path = String.ofList (s ++ '/' :: path.toList) := by
      apply String.toList_inj.mp
      simp [hd]
    rw [hpath, names_append_slash, hd, names_append_slash_end, String.ofList_toList]
  · have hpath : directory ++ "/" ++ path = String.ofList (directory.toList ++ '/' :: path.toList) := by
      apply String.toList_inj.mp
      simp
    rw [hpath, names_append_slash, String.ofList_toList, String.ofList_toList]

lemma start_join {path : String} (h : ¬ IsAbsolute path) (directory : String) :
    start (join directory path) = start directory := by
  have hroot : startsWith path.toList ['/'] = false := by
    simpa [IsAbsolute, ← startsWith_iff] using h
  simp only [join, hroot, Bool.false_or]
  split_ifs with hempty hslash
  · rw [String.isEmpty_iff.mp hempty, start_eq, if_neg h]
    rfl
  all_goals
    obtain ⟨c, cs, hd⟩ : ∃ c cs, directory.toList = c :: cs :=
      List.exists_cons_of_ne_nil fun hn => hempty (String.isEmpty_iff.mpr (String.toList_eq_nil_iff.mp hn))
    simp [start_eq, IsAbsolute, hd]

/-- A path that does not start at the root is followed from where the directory is. -/
theorem location_join {path : String} (h : ¬ IsAbsolute path) (directory : String) :
    location (join directory path) = (names path).foldl enter (location directory) := by
  rw [location, names_join h, start_join h, List.foldl_append, location]

lemma foldl_enter_of_descends {steps : List String} (h : ".." ∉ steps) (place : List String) :
    steps.foldl enter place = place ++ steps := by
  induction steps generalizing place with
  | nil => simp
  | cons name rest ih =>
    obtain ⟨hname, hrest⟩ := not_or.mp (mt List.mem_cons.mpr h)
    have henter : enter place name = place ++ [name] := by simp [enter, Ne.symm hname]
    rw [List.foldl_cons, henter, ih hrest, List.append_assoc, List.singleton_append]

/-- A path that stays below leads into the directory, by its names. -/
theorem IsConfined.location_join {path : String} (h : IsConfined path) (directory : String) :
    location (join directory path) = location directory ++ names path := by
  rw [DiskPath.location_join h.relative, foldl_enter_of_descends h.descends]

/-- The location is passed on the way along a path. -/
def IsPassed (path : String) (place : List String) : Prop :=
  ∃ steps, steps <+: names path ∧ place = steps.foldl enter (start path)

/-- On the way to a file below a directory one passes what leads to the directory, and then stays in it. -/
theorem IsPassed.of_join {directory path : String} {place : List String} (hpath : IsConfined path)
    (h : IsPassed (join directory path) place) :
    IsPassed directory place ∨ location directory <+: place := by
  obtain ⟨steps, hsteps, rfl⟩ := h
  rw [names_join hpath.relative] at hsteps
  rw [start_join hpath.relative]
  rcases List.prefix_or_prefix_of_prefix hsteps (List.prefix_append _ _) with hshort | ⟨more, rfl⟩
  · exact .inl ⟨steps, hshort, rfl⟩
  · refine .inr ?_
    have hmore : more <+: names path := List.prefix_self_append_iff.mp hsteps
    have hdescends : ".." ∉ more := fun hm => hpath.descends (hmore.subset hm)
    rw [List.foldl_append, ← location, foldl_enter_of_descends hdescends]
    exact List.prefix_append _ _

/-- Slashes and single dots at the end of a path are no names. -/
lemma names_trimEnd (fuel : Nat) (path : List Char) :
    names (String.ofList (trimEnd fuel path)) = names (String.ofList path) := by
  fun_induction trimEnd fuel path with
  | case1 => rfl
  | case2 => rfl
  | case3 fuel path _ shorter hslash ih =>
    rw [ih, dropSuffix?_eq_some_iff.mp hslash, names_append_slash_end]
  | case4 fuel path _ shorter hdot _ ih =>
    have hpath : names (String.ofList path) = names (String.ofList shorter) := by
      rw [dropSuffix?_eq_some_iff.mp hdot, names_append_slash]
      exact List.append_nil _
    rw [ih, hpath]
    split_ifs with hempty
    · rw [List.isEmpty_iff.mp hempty]
      rfl
    · rfl
  | case5 => rfl

lemma root_prefix_trimEnd_iff (fuel : Nat) (path : List Char) :
    ['/'] <+: trimEnd fuel path ↔ ['/'] <+: path := by
  fun_induction trimEnd fuel path with
  | case1 => rfl
  | case2 => rfl
  | case3 fuel path hroot shorter hslash ih =>
    have hpath := dropSuffix?_eq_some_iff.mp hslash
    rw [ih, hpath]
    cases shorter with
    | nil => exact absurd hpath (by simpa using hroot)
    | cons c cs => simp
  | case4 fuel path _ shorter hdot _ ih =>
    rw [ih, dropSuffix?_eq_some_iff.mp hdot]
    cases shorter <;> simp
  | case5 => rfl

/-- The part of a path up to its last slash is empty or ends with it. -/
lemma splitName_fst_eq (path : List Char) :
    (ProjectPath.splitName path).1 = [] ∨ ∃ s, (ProjectPath.splitName path).1 = s ++ ['/'] := by
  simp only [ProjectPath.splitName]
  cases h : path.reverse.dropWhile (· != '/') with
  | nil => simp
  | cons c cs =>
    refine .inr ⟨cs.reverse, ?_⟩
    have hne : path.reverse.dropWhile (· != '/') ≠ [] := by simp [h]
    have hc := List.head_dropWhile_not (· != '/') hne
    simp only [h, List.head_cons, bne_eq_false_iff_eq] at hc
    simp [hc]

lemma slash_notMem_splitName_snd (path : List Char) : '/' ∉ (ProjectPath.splitName path).2 := by
  intro h
  have hne := List.mem_takeWhile_imp (List.mem_reverse.mp h)
  simp at hne

/-- A path is split at a slash that no other one follows. -/
lemma splitName_append_slash (s : List Char) {name : List Char} (h : '/' ∉ name) :
    ProjectPath.splitName (s ++ '/' :: name) = (s ++ ['/'], name) := by
  have hall : ∀ c ∈ name.reverse, (c != '/') = true := fun c hc =>
    bne_iff_ne.mpr fun heq => h (heq ▸ List.mem_reverse.mp hc)
  simp [ProjectPath.splitName, List.dropWhile_append_of_pos hall, List.takeWhile_append_of_pos hall]

/-- The directory that a path lies in is passed on the way along the path. -/
theorem names_parent_isPrefix (path : String) : names (parent path) <+: names path := by
  have hpath : names (String.ofList (trimmed path)) = names path := by
    rw [trimmed, names_trimEnd, String.ofList_toList]
  rw [parent, names_trimEnd, ← hpath]
  conv_rhs => rw [← ProjectPath.splitName_append (trimmed path)]
  rcases splitName_fst_eq (trimmed path) with h | ⟨s, h⟩
  · rw [h]
    exact List.nil_prefix
  · rw [h, names_append_slash_end, List.append_assoc, List.singleton_append, names_append_slash]
    exact List.prefix_append _ _

lemma start_parent (path : String) : start (parent path) = start path := by
  have habs : IsAbsolute (parent path) ↔ IsAbsolute path := by
    simp only [IsAbsolute, parent, String.toList_ofList, root_prefix_trimEnd_iff]
    rw [← root_prefix_trimEnd_iff path.length path.toList, ← trimmed]
    conv_rhs => rw [← ProjectPath.splitName_append (trimmed path)]
    rcases splitName_fst_eq (trimmed path) with h | ⟨s, h⟩
    · rw [h]
      have hname : ¬ ['/'] <+: (ProjectPath.splitName (trimmed path)).2 := fun hp =>
        slash_notMem_splitName_snd (trimmed path) (hp.subset (by simp))
      simpa using hname
    · rw [h]
      cases s <;> simp
  simp only [start_eq, habs]

lemma IsPassed.of_parent {path : String} {place : List String} (h : IsPassed (parent path) place) :
    IsPassed path place := by
  obtain ⟨steps, hsteps, rfl⟩ := h
  exact ⟨steps, hsteps.trans (names_parent_isPrefix path), by rw [start_parent]⟩

end DiskPath

end SpaMigration
