import SpaMigration.Proofs.LayoutNames

/-!
# The names of pages

Each page is named after the words of its path, and a name that is in use is numbered. Such a name always starts
with a capital and goes on with letters and digits. The search for a number that is free ends, since as many names
as are in use, and one more, are all different. What it finds is not in use, so no two pages have the same name,
and no page is named like a layout.
-/
namespace SpaMigration

namespace Text

/-- The large form of a letter is a capital. -/
lemma isUpper_toUpper {c : Char} (h : c.isAlpha = true) : c.toUpper.isUpper = true := by
  delta Char.isAlpha Char.isUpper Char.isLower at h
  delta Char.isUpper Char.toUpper
  simp only [UInt32.le_iff_toNat_le, ge_iff_le, decide_eq_true_eq] at h ⊢
  split <;> grind [UInt32.toNat_add]

lemma isAlphanum_of_isUpper {c : Char} (h : c.isUpper = true) : c.isAlphanum = true := by
  delta Char.isAlphanum Char.isAlpha
  simp [h]

lemma isAlphanum_of_isLower {c : Char} (h : c.isLower = true) : c.isAlphanum = true := by
  delta Char.isAlphanum Char.isAlpha
  simp [h]

lemma isAlphanum_of_isDigit {c : Char} (h : c.isDigit = true) : c.isAlphanum = true := by
  simp [Char.isAlphanum, h]

end Text

namespace TargetRoute

open Text

/-- A capital with letters and digits behind it. -/
def IsComponentName (name : String) : Prop :=
  ∃ first rest, name.toList = first :: rest ∧ first.isUpper = true ∧ ∀ c ∈ rest, c.isAlphanum = true

lemma IsComponentName.append {name more : String} (h : IsComponentName name)
    (hmore : ∀ c ∈ more.toList, c.isAlphanum = true) : IsComponentName (name ++ more) := by
  obtain ⟨first, rest, hname, hfirst, hrest⟩ := h
  refine ⟨first, rest ++ more.toList, by rw [String.toList_append, hname, List.cons_append], hfirst, ?_⟩
  exact List.forall_mem_append.mpr ⟨hrest, hmore⟩

lemma isAlphanum_of_mem_pascalCase {state : CasingState} {cs : List Char} :
    ∀ c ∈ pascalCase state cs, c.isAlphanum = true := by
  induction cs generalizing state with
  | nil => simp [pascalCase]
  | cons c cs ih =>
    rw [pascalCase]
    split_ifs with hother hdigit hbegins
    · exact ih
    · exact List.forall_mem_cons.mpr ⟨isAlphanum_of_isDigit hdigit, ih⟩
    · have halpha := isAlpha_of_isAlphanum (by simpa using hother) hdigit
      exact List.forall_mem_cons.mpr ⟨isAlphanum_of_isUpper (isUpper_toUpper halpha), ih⟩
    · have halpha := isAlpha_of_isAlphanum (by simpa using hother) hdigit
      exact List.forall_mem_cons.mpr ⟨isAlphanum_of_isLower (isLower_toLower halpha), ih⟩

/-- At the start of a word the first letter that comes is a capital or a digit. -/
lemma head?_pascalCase {last first : Char} {cs : List Char}
    (h : (pascalCase ⟨true, last⟩ cs).head? = some first) : first.isDigit = true ∨ first.isUpper = true := by
  induction cs with
  | nil => simp [pascalCase] at h
  | cons c cs ih =>
    rw [pascalCase] at h
    split_ifs at h with hother hdigit hbegins
    · exact ih h
    · exact .inl (Option.some.inj h ▸ hdigit)
    · have halpha := isAlpha_of_isAlphanum (by simpa using hother) hdigit
      exact .inr (Option.some.inj h ▸ isUpper_toUpper halpha)
    · simp at hbegins

/-- Every text gives a name that can stand for a component, if the ending is such a name. -/
lemma isComponentName_identifier (raw : String) {ending : String} (hending : IsComponentName ending) :
    IsComponentName (identifier raw ending) := by
  have hletters : ∀ c ∈ ending.toList, c.isAlphanum = true := by
    obtain ⟨first, rest, hname, hfirst, hrest⟩ := hending
    rw [hname]
    exact List.forall_mem_cons.mpr ⟨isAlphanum_of_isUpper hfirst, hrest⟩
  rw [identifier]
  set name := pascalCase ⟨true, ' '⟩ (raw.toList.map fun c => if c.isAlphanum then c else ' ') with hname
  have hall : ∀ c ∈ name, c.isAlphanum = true := isAlphanum_of_mem_pascalCase
  split_ifs with hguard
  · -- The ending is put in front.
    have hfront : String.ofList (ending.toList ++ name) = ending ++ String.ofList name := by
      rw [String.ofList_append, String.ofList_toList]
    rw [hfront]
    exact (hending.append (by simpa using hall)).append hletters
  · refine IsComponentName.append ?_ hletters
    rw [Bool.or_eq_true, not_or] at hguard
    cases hcases : name with
    | nil => simp [hcases] at hguard
    | cons first rest =>
      have hhead : name.head? = some first := by rw [hcases, List.head?_cons]
      have hfirst := head?_pascalCase hhead
      refine ⟨first, rest, by simp, ?_, fun c hc => hall c (by simp [hcases, hc])⟩
      exact hfirst.resolve_left (by simpa [hcases] using hguard.2)

/-- The search for a name that is not in use. The name at hand is found if it is free; otherwise the search goes
on with the base and the number, and so on with the numbers behind it. -/
inductive Finds (used : List String) (base : String) : Nat → String → String → Prop
  | free {number name} : name ∉ used → Finds used base number name name
  | taken {number name found} : name ∈ used → Finds used base (number + 1) (base ++ toString number) found →
      Finds used base number name found

namespace Finds

variable {used others : List String} {base name found : String} {number : Nat}

lemma notMem (h : Finds used base number name found) : found ∉ used := by
  induction h with
  | free hfree => exact hfree
  | taken _ _ ih => exact ih

/-- Only the names in use matter, not their order. -/
lemma congr (h : Finds used base number name found) (hused : ∀ name, name ∈ others ↔ name ∈ used) :
    Finds others base number name found := by
  induction h with
  | free hfree => exact .free fun h => hfree ((hused _).mp h)
  | taken htaken _ ih => exact .taken ((hused _).mpr htaken) ih

lemma isComponentName (h : Finds used base number name found) (hbase : IsComponentName base)
    (hname : IsComponentName name) : IsComponentName found := by
  induction h with
  | free _ => exact hname
  | @taken number _ _ _ _ ih =>
    refine ih (hbase.append fun c hc => ?_)
    have hdigits : (toString number).toList = Nat.toDigits 10 number := by simp
    rw [hdigits] at hc
    exact isAlphanum_of_isDigit (Nat.isDigit_of_mem_toDigits (by decide) (by decide) hc)

end Finds

variable {used : List String} {base name found : String}

/-- The first numbered name that is free is found behind a name in use. -/
lemma finds_of_find? {first count : Nat} (hname : name ∈ used)
    (h : ((List.range' first count).map fun n => base ++ toString n).find? (fun name => !used.contains name) =
      some found) : Finds used base first name found := by
  induction count generalizing first name with
  | zero => simp at h
  | succ count ih =>
    rw [List.range'_succ, List.map_cons, List.find?_cons] at h
    refine .taken hname ?_
    split at h
    · next hfree =>
      obtain rfl := Option.some.inj h
      exact .free (by simpa using hfree)
    · next htaken => exact ih (by simpa using htaken) h

/-- Two numbers give two names. -/
lemma numbered_inj {m n : Nat} (h : base ++ toString m = base ++ toString n) : m = n := by
  have hletters := congrArg String.toList h
  rw [String.toList_append, String.toList_append] at hletters
  have hnumbers := congrArg (Nat.ofDigitChars 10 · 0) (List.append_cancel_left hletters)
  simpa using hnumbers

/-- Of the numbered names, one more than there are names in use, one is free. -/
lemma exists_numbered_notMem (base : String) (used : List String) (first : Nat) :
    ∃ name ∈ (List.range' first (used.length + 1)).map (fun n => base ++ toString n), name ∉ used := by
  by_contra hall
  have hsubset : ((List.range' first (used.length + 1)).map fun n => base ++ toString n) ⊆ used := by
    intro name hname
    by_contra hfree
    exact hall ⟨name, hname, hfree⟩
  have hdistinct : ((List.range' first (used.length + 1)).map fun n => base ++ toString n).Nodup :=
    List.Nodup.map (fun _ _ => numbered_inj) List.nodup_range'
  have hlength := hdistinct.length_le_of_subset hsubset
  rw [List.length_map, List.length_range'] at hlength
  omega

/-- The name that is given is the one that the search finds. -/
theorem finds_freshName (base : String) (used : List String) :
    Finds used base 2 base (freshName base used) := by
  rw [freshName]
  split_ifs with htaken
  · have hnumbers : ((List.range (used.length + 1)).map fun n => base ++ toString (n + 2)) =
        (List.range' 2 (used.length + 1)).map fun n => base ++ toString n := by
      rw [List.range'_eq_map_range, List.map_map]
      exact List.map_congr_left fun n _ => by rw [Function.comp_apply, Nat.add_comm]
    have hsome : (((List.range' 2 (used.length + 1)).map fun n => base ++ toString n).find?
        fun name => !used.contains name).isSome := by
      obtain ⟨name, hmem, hfree⟩ := exists_numbered_notMem base used 2
      exact List.find?_isSome.mpr ⟨name, hmem, by simpa using hfree⟩
    obtain ⟨found, hfound⟩ := Option.isSome_iff_exists.mp hsome
    simp only [hnumbers, hfound, Option.getD_some]
    exact finds_of_find? (by simpa using htaken) hfound
  · exact .free (by simpa using htaken)

/-- The name of a page is what the search finds for the words of its path, where the names given before are in
use. -/
lemma finds_component {routes : List Route} {before after : List TargetRoute} {target : TargetRoute}
    (h : assign routes used = before ++ target :: after) :
    Finds ((before.map (·.component)).reverse ++ used) (pageName target.file) 2 (pageName target.file)
      target.component := by
  induction routes generalizing used before with
  | nil => simp [assign] at h
  | cons route routes ih =>
    rw [assign] at h
    cases before with
    | nil =>
      obtain ⟨rfl, -⟩ := List.cons.inj h
      exact finds_freshName _ _
    | cons first before =>
      obtain ⟨rfl, hrest⟩ := List.cons.inj h
      simpa [ofRoute] using ih hrest

/-- Names of which none is among those before it are distinct. -/
lemma nodup_map_component {targets : List TargetRoute}
    (h : ∀ before target after, targets = before ++ target :: after →
      target.component ∉ before.map (·.component)) : (targets.map (·.component)).Nodup := by
  induction targets using List.reverseRecOn with
  | nil => exact List.nodup_nil
  | append_singleton targets target ih =>
    rw [List.map_append, List.map_singleton, List.nodup_append]
    refine ⟨ih fun before earlier after heq => ?_, List.nodup_singleton _, ?_⟩
    · exact h before earlier (after ++ [target]) (by simp [heq])
    · rintro name hname _ hlast rfl
      rw [List.mem_singleton] at hlast
      exact h targets target [] rfl (hlast ▸ hname)

/-- The pages of any files get names that can stand for components, no two of them the same and none that of a
layout. Each is what the search finds for the words of the page's path among the names given before, and the
search ends with a name that is not in use whatever it starts from. -/
theorem component_names_usable (files : List String) :
    let targets := ofRoutes (Route.table files)
    (targets.map (·.component)).Nodup ∧
    (∀ target ∈ targets, IsComponentName target.component ∧ ∀ file, target.component ≠ layoutName file) ∧
    (∀ before target after, targets = before ++ target :: after →
      Finds (before.map (·.component)) (pageName target.file) 2 (pageName target.file) target.component) ∧
    ∀ base used, Finds used base 2 base (freshName base used) ∧ freshName base used ∉ used := by
  intro targets
  have hfinds : ∀ before target after, targets = before ++ target :: after →
      Finds (before.map (·.component)) (pageName target.file) 2 (pageName target.file) target.component :=
    fun before target after h => (finds_component h).congr (by simp)
  refine ⟨nodup_map_component fun before target after h => (hfinds before target after h).notMem, ?_, hfinds,
    fun base used => ⟨finds_freshName base used, (finds_freshName base used).notMem⟩⟩
  intro target htarget
  have hpage : IsComponentName (pageName target.file) :=
    isComponentName_identifier _ ⟨'P', "age".toList, by decide, by decide, List.all_eq_true.mp (by decide)⟩
  obtain ⟨before, after, hsplit⟩ := List.append_of_mem htarget
  refine ⟨(hfinds before target after hsplit).isComponentName hpage hpage, fun file hname => ?_⟩
  have hlast := getLast?_component htarget
  rw [hname, getLast?_layoutName] at hlast
  exact hlast rfl

/-- Pages with the same words, one with a digit in front, and a layout. -/
def sameWords : List String :=
  ["pages/a-b.tsx", "pages/a/b.tsx", "pages/_layout.tsx", "pages/A_B.jsx", "pages/2024.tsx"]

theorem component_names_usable_sameWords :
    (ofRoutes (Route.table sameWords)).map (·.component) = ["ABPage", "ABPage2", "ABPage3", "Page2024Page"] ∧
    IsComponentName "Page2024Page" ∧ "Page2024Page" ≠ layoutName "pages/_layout.tsx" ∧
    Finds ["ABPage", "ABPage2"] "ABPage" 2 "ABPage" "ABPage3" := by
  have hnames : (ofRoutes (Route.table sameWords)).map (fun target => (target.component, pageName target.file)) =
      ["ABPage", "ABPage2"].map (·, "ABPage") ++ [("ABPage3", "ABPage"), ("Page2024Page", "Page2024Page")] := by
    decide +kernel
  obtain ⟨before, after, hsplit, hbefore, hafter⟩ := List.map_eq_append_iff.mp hnames
  obtain ⟨third, rest, rfl, hthird, hrest⟩ := List.map_eq_cons_iff.mp hafter
  obtain ⟨fourth, _, rfl, hfourth, hnil⟩ := List.map_eq_cons_iff.mp hrest
  obtain rfl := List.map_eq_nil_iff.mp hnil
  obtain ⟨hcomponent, hpage⟩ := Prod.mk.inj hthird
  obtain ⟨hlast, -⟩ := Prod.mk.inj hfourth
  have hearlier : before.map (·.component) = ["ABPage", "ABPage2"] := by
    simpa [List.map_map, Function.comp_def] using congrArg (List.map Prod.fst) hbefore
  obtain ⟨-, husable, hfinds, -⟩ := component_names_usable sameWords
  obtain ⟨hname, hlayout⟩ := husable fourth (by simp [hsplit])
  have hfound := hfinds before third [fourth] hsplit
  rw [hearlier, hpage, hcomponent] at hfound
  rw [hlast] at hname hlayout
  exact ⟨by simp [hsplit, hearlier, hcomponent, hlast], hname, hlayout _, hfound⟩

end TargetRoute

end SpaMigration
