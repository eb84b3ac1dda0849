import Mathlib.Tactic.Common
import SpaMigration.Proofs.RouteFields

/-!
# The layout that is nearest to a page

The search for the layout of a page goes up from the directory of its file, one directory at a time, until the
path is no longer than that of the page directory. It comes to an end from everywhere, and below the page
directory it passes exactly the directories between the file and there, the page directory included. So a page
gets the last layout listed in the longest of these directories that has one, and none if there is none in them.
-/
namespace SpaMigration

namespace ProjectPath

variable {directory other path root : String}

/-- The path lies somewhere below the directory: it goes on from there behind a slash. -/
def Contains (directory path : String) : Prop := ∃ rest, path = directory ++ "/" ++ rest

lemma Contains.size_lt (h : Contains directory path) : directory.utf8ByteSize < path.utf8ByteSize := by
  obtain ⟨rest, rfl⟩ := h
  have hslash : "/".utf8ByteSize = 1 := by decide
  simp only [String.utf8ByteSize_append, hslash]
  omega

lemma Contains.slash_mem (h : Contains directory path) : '/' ∈ path.toList := by
  obtain ⟨rest, rfl⟩ := h
  simp

lemma Contains.trans (h : Contains directory other) (h' : Contains other path) : Contains directory path := by
  obtain ⟨middle, rfl⟩ := h
  obtain ⟨rest, rfl⟩ := h'
  exact ⟨middle ++ "/" ++ rest, by simp only [String.append_assoc]⟩

/-- Of two directories of one path the one of the shorter name begins the other. -/
lemma Contains.prefix_of_size_le (h : Contains directory path) (h' : Contains other path)
    (hsize : directory.utf8ByteSize ≤ other.utf8ByteSize) : directory.toList <+: other.toList := by
  obtain ⟨rest, rfl⟩ := h
  obtain ⟨rest', heq⟩ := h'
  have hlists := congrArg String.toList heq
  simp only [String.toList_append, List.append_assoc] at hlists
  rcases List.append_eq_append_iff.mp hlists with ⟨more, hmore, -⟩ | ⟨more, hmore, -⟩
  · exact ⟨more, hmore.symm⟩
  · have hother : directory = other ++ String.ofList more := String.toList_inj.mp (by simpa using hmore)
    have hempty : String.ofList more = "" := by
      rw [hother, String.utf8ByteSize_append] at hsize
      exact String.utf8ByteSize_eq_zero_iff.mp (by omega)
    simp only [hother, hempty, String.append_empty, List.prefix_rfl]

/-- A path with a slash is its directory, a slash, and a name without any. -/
lemma eq_parent_append (h : '/' ∈ path.toList) :
    ∃ name : String, '/' ∉ name.toList ∧ path = parent path ++ "/" ++ name := by
  have hname := DiskPath.slash_notMem_splitName_snd path.toList
  have hpath := splitName_append path.toList
  refine ⟨fileName path, by simpa [fileName] using hname, String.toList_inj.mp ?_⟩
  rcases DiskPath.splitName_fst_eq path.toList with hfst | ⟨s, hfst⟩
  · rw [hfst, List.nil_append] at hpath
    rw [hpath] at hname
    exact absurd h hname
  · rw [hfst] at hpath
    simpa [parent, fileName, hfst] using hpath.symm

/-- What contains a path contains its directory, unless it is that directory. -/
lemma contains_iff (h : '/' ∈ path.toList) :
    Contains directory path ↔ directory = parent path ∨ Contains directory (parent path) := by
  obtain ⟨name, hname, hpath⟩ := eq_parent_append h
  constructor
  · rintro ⟨rest, hrest⟩
    have hlists := congrArg String.toList (hrest.symm.trans hpath)
    simp only [String.toList_append, List.append_assoc] at hlists
    rcases List.append_eq_append_iff.mp hlists with ⟨more, hmore, hsplit⟩ | ⟨more, hmore, hsplit⟩
    · cases more with
      | nil => exact .inl (String.toList_inj.mp (by simpa using hmore.symm))
      | cons c more =>
        obtain ⟨rfl, -⟩ : '/' = c ∧ rest.toList = more ++ ('/' :: name.toList) := by simpa using hsplit
        exact .inr ⟨String.ofList more, String.toList_inj.mp (by simpa using hmore)⟩
    · cases more with
      | nil => exact .inl (String.toList_inj.mp (by simpa using hmore))
      | cons c more =>
        -- The slash behind the longer directory would stand in the name.
        obtain ⟨-, hmem⟩ : '/' = c ∧ name.toList = more ++ ('/' :: rest.toList) := by simpa using hsplit
        exact absurd (hmem ▸ List.mem_append_right more List.mem_cons_self) hname
  · rintro (rfl | hcontains)
    · exact ⟨name, hpath⟩
    · exact hcontains.trans ⟨name, hpath⟩

lemma parent_append {name : String} (h : '/' ∉ name.toList) : parent (directory ++ "/" ++ name) = directory := by
  have hsplit : splitName (directory ++ "/" ++ name).toList = (directory.toList ++ ['/'], name.toList) := by
    have hslash : (directory ++ "/" ++ name).toList = directory.toList ++ '/' :: name.toList := by simp
    rw [hslash, DiskPath.splitName_append_slash _ h]
  rw [parent, hsplit, List.dropLast_concat, String.ofList_toList]

/-- Going up makes a path shorter, unless it is empty. -/
lemma size_parent_lt (h : 0 < path.utf8ByteSize) : (parent path).utf8ByteSize < path.utf8ByteSize := by
  by_cases hslash : '/' ∈ path.toList
  · exact ((contains_iff hslash).mpr (.inl rfl)).size_lt
  · have hfst : (splitName path.toList).1 = [] := by
      rcases DiskPath.splitName_fst_eq path.toList with hfst | ⟨s, hfst⟩
      · exact hfst
      · have hpath := splitName_append path.toList
        rw [hfst] at hpath
        exact absurd (hpath ▸ by simp) hslash
    have hparent : parent path = "" := by simp [parent, hfst]
    rwa [hparent, String.utf8ByteSize_empty]

end ProjectPath

open ProjectPath

namespace Route

variable {root directory other file layout : String} {walk : List String} {files : List String} {route : Route}

/-- The walk up from a directory: it ends where the path is no longer than that of the root. -/
inductive Climb (root : String) : String → List String → Prop
  | stop {directory : String} (hsize : directory.utf8ByteSize ≤ root.utf8ByteSize) :
    Climb root directory [directory]
  | up {directory : String} {above : List String} (hsize : root.utf8ByteSize < directory.utf8ByteSize)
    (habove : Climb root (parent directory) above) : Climb root directory (directory :: above)

/-- The walk comes to an end, and the bound on the number of steps is never what ends it. -/
theorem climb_directoriesUpTo {steps : Nat} (h : directory.utf8ByteSize < steps) :
    Climb root directory (directoriesUpTo root steps directory) := by
  induction steps generalizing directory with
  | zero => exact absurd h (Nat.not_lt_zero _)
  | succ steps ih =>
    rw [directoriesUpTo]
    split_ifs with hsize
    · exact .stop hsize
    · have hpos : 0 < directory.utf8ByteSize := by omega
      have hless := size_parent_lt hpos
      exact .up (by omega) (ih (by omega))

lemma Climb.unique {others : List String} (h : Climb root directory walk) (h' : Climb root directory others) :
    others = walk := by
  induction h generalizing others with
  | stop hsize =>
    cases h' with
    | stop => rfl
    | up hlt _ => exact absurd hlt (by omega)
  | up hlt _ ih =>
    cases h' with
    | stop hsize => exact absurd hlt (by omega)
    | up _ habove => rw [ih habove]

/-- The directories of a walk become shorter. -/
lemma Climb.pairwise (h : Climb root directory walk) :
    walk.Pairwise (fun a b => b.utf8ByteSize < a.utf8ByteSize) ∧
      ∀ passed ∈ walk, passed.utf8ByteSize ≤ directory.utf8ByteSize := by
  induction h with
  | stop => simp
  | @up directory above hlt _ ih =>
    have hpos : 0 < directory.utf8ByteSize := by omega
    have hless := size_parent_lt hpos
    refine ⟨List.pairwise_cons.mpr ⟨fun passed hpassed => ?_, ih.1⟩, List.forall_mem_cons.mpr ⟨le_rfl, ?_⟩⟩
    · have := ih.2 passed hpassed
      omega
    · intro passed hpassed
      have := ih.2 passed hpassed
      omega

/-- The directory is the root or lies below it. -/
def IsAtOrBelow (root directory : String) : Prop := directory = root ∨ Contains root directory

/-- A walk that starts at the root or below passes the directories between its start and the root. -/
lemma Climb.mem_iff (h : Climb root directory walk) (hroot : IsAtOrBelow root directory) :
    other ∈ walk ↔ IsAtOrBelow root other ∧ IsAtOrBelow other directory := by
  induction h with
  | @stop directory hsize =>
    obtain rfl : directory = root := hroot.resolve_right fun h => absurd h.size_lt (by omega)
    rw [List.mem_singleton]
    constructor
    · rintro rfl
      exact ⟨.inl rfl, .inl rfl⟩
    · rintro ⟨heq | hbelow, hup⟩
      · exact heq
      · exact (hup.resolve_right fun hup => absurd hup.size_lt (by have := hbelow.size_lt; omega)).symm
  | @up directory above hlt _ ih =>
    have hbelow : Contains root directory := hroot.resolve_left fun heq => absurd hlt (by rw [heq]; omega)
    have hparent : IsAtOrBelow root (parent directory) :=
      ((contains_iff hbelow.slash_mem).mp hbelow).imp_left Eq.symm
    rw [List.mem_cons, ih hparent]
    constructor
    · rintro (rfl | ⟨hother, hup⟩)
      · exact ⟨.inr hbelow, .inl rfl⟩
      · exact ⟨hother, .inr ((contains_iff hbelow.slash_mem).mpr (hup.imp_left Eq.symm))⟩
    · rintro ⟨hother, rfl | hup⟩
      · exact .inl rfl
      · exact .inr ⟨hother, ((contains_iff hbelow.slash_mem).mp hup).imp_left Eq.symm⟩

/-- The directory is on the way from a file to the page directory, which is on it too. -/
def IsAround (root file directory : String) : Prop := IsAtOrBelow root directory ∧ Contains directory file

lemma Climb.mem_iff_isAround (h : Climb root (parent file) walk) (hfile : Contains root file) :
    directory ∈ walk ↔ IsAround root file directory := by
  have hparent : Contains root file ↔ root = parent file ∨ Contains root (parent file) := contains_iff hfile.slash_mem
  rw [h.mem_iff ((hparent.mp hfile).imp_left Eq.symm), IsAround, contains_iff hfile.slash_mem, IsAtOrBelow,
    IsAtOrBelow, eq_comm (a := parent file)]

/-- The file is a layout that lies directly in the directory. -/
def IsLayoutIn (directory file : String) : Prop :=
  ∃ extension ∈ ["tsx", "jsx", "js", "ts"], file = directory ++ "/" ++ ("_layout." ++ extension)

instance (directory file : String) : Decidable (IsLayoutIn directory file) :=
  inferInstanceAs (Decidable (∃ extension ∈ ["tsx", "jsx", "js", "ts"], _))

/-- The layouts that lie directly in a directory, in the order of the list. -/
def layoutsIn (files : List String) (directory : String) : List String :=
  files.filter fun file => decide (IsLayoutIn directory file)

lemma isLayoutIn_iff : IsLayoutIn directory file ↔ isLayout file = true ∧ parent file = directory := by
  have hnames : layoutNames = ["tsx", "jsx", "js", "ts"].map fun extension => "/" ++ ("_layout." ++ extension) := by
    decide
  have hslash : ∀ extension ∈ ["tsx", "jsx", "js", "ts"], '/' ∉ ("_layout." ++ extension).toList := by decide
  simp only [isLayout, List.any_eq_true, Text.endsWith_iff, hnames, List.mem_map]
  constructor
  · rintro ⟨extension, hextension, rfl⟩
    refine ⟨⟨_, ⟨extension, hextension, rfl⟩, directory.toList, ?_⟩, parent_append (hslash extension hextension)⟩
    simp only [String.toList_append, List.append_assoc]
  · rintro ⟨⟨_, ⟨extension, hextension, rfl⟩, front, hfront⟩, rfl⟩
    have hfile : file = String.ofList front ++ "/" ++ ("_layout." ++ extension) :=
      String.toList_inj.mp (by simpa using hfront.symm)
    refine ⟨extension, hextension, ?_⟩
    conv_rhs => rw [hfile, parent_append (hslash extension hextension)]
    exact hfile

lemma layoutIn?_eq (files : List String) (directory : String) :
    layoutIn? files directory = (layoutsIn files directory).getLast? := by
  rw [layoutsIn, List.getLast?_filter, layoutIn?]
  congr 1
  funext file
  rw [Bool.eq_iff_iff, decide_eq_true_iff, isLayoutIn_iff, Bool.and_eq_true, beq_iff_eq]

/-- The directory has a layout, and no longer one on the way from the file to the page directory has one. -/
structure IsNearest (files : List String) (root file directory : String) : Prop where
  around : IsAround root file directory
  hasLayout : layoutsIn files directory ≠ []
  longest : ∀ other, IsAround root file other → layoutsIn files other ≠ [] → other.toList <+: directory.toList

lemma IsNearest.unique (h : IsNearest files root file directory) (h' : IsNearest files root file other) :
    other = directory :=
  String.toList_inj.mp <| (h.longest other h'.around h'.hasLayout).eq_of_length_le
    (h'.longest directory h.around h.hasLayout).length_le

lemma layoutIn?_eq_none_iff : layoutIn? files directory = none ↔ layoutsIn files directory = [] := by
  rw [layoutIn?_eq, List.getLast?_eq_none_iff]

/-- The first layout on a walk is one of the nearest directory. -/
lemma Climb.isNearest_of_findSome? (h : Climb root (parent file) walk) (hfile : Contains root file)
    (hfound : walk.findSome? (layoutIn? files) = some layout) : ∃ directory,
      IsNearest files root file directory ∧ (layoutsIn files directory).getLast? = some layout := by
  obtain ⟨before, directory, behind, rfl, hlayout, hnone⟩ := List.findSome?_eq_some_iff.mp hfound
  have hmem : ∀ {passed}, passed ∈ before ++ directory :: behind ↔ IsAround root file passed :=
    h.mem_iff_isAround hfile
  have haround : IsAround root file directory := hmem.mp (by simp)
  have hshorter := (List.pairwise_append.mp h.pairwise.1).2.1
  rw [layoutIn?_eq] at hlayout
  refine ⟨directory, ⟨haround, fun hempty => by simp [hempty] at hlayout, fun other hother hhas => ?_⟩, hlayout⟩
  rcases List.mem_append.mp (hmem.mpr hother) with hbefore | hbehind
  · exact absurd (layoutIn?_eq_none_iff.mp (hnone other hbefore)) hhas
  · rcases List.mem_cons.mp hbehind with rfl | hbehind
    · exact List.prefix_rfl
    · exact hother.2.prefix_of_size_le haround.2 ((List.pairwise_cons.mp hshorter).1 other hbehind).le

/-- The search goes up to the page directory and comes to an end; what it finds is the last layout in the list
that lies directly in the longest directory of the file, at or below the page directory, which has a layout.
There is none exactly when no directory on this way has one, and one outside the page directory is never taken. -/
theorem layout_is_nearest (h : route ∈ table files) :
    ∃ root rest, splitPageRoot? route.file = some (root, rest) ∧
      (∃! walk, Climb root (parent route.file) walk) ∧
      (∀ walk, Climb root (parent route.file) walk → route.layout = walk.findSome? (layoutIn? files)) ∧
      (∀ layout, route.layout = some layout ↔ ∃ directory, IsNearest files root route.file directory ∧
        (layoutsIn files directory).getLast? = some layout) ∧
      (route.layout = none ↔ ∀ directory, IsAround root route.file directory → layoutsIn files directory = []) ∧
      ∀ layout, route.layout = some layout → Contains root layout := by
  obtain ⟨root, rest, hroute⟩ := isReadOff_of_mem_table h
  have hfile : Contains root route.file := ⟨rest, hroute.file_eq⟩
  have hclimb : Climb root (parent route.file)
      (directoriesUpTo root ((parent route.file).utf8ByteSize + 1) (parent route.file)) :=
    climb_directoriesUpTo (Nat.lt_succ_self _)
  have hlayout : route.layout = (directoriesUpTo root ((parent route.file).utf8ByteSize + 1)
      (parent route.file)).findSome? (layoutIn? files) := hroute.layout
  have hnone : route.layout = none ↔
      ∀ directory, IsAround root route.file directory → layoutsIn files directory = [] := by
    rw [hlayout, List.findSome?_eq_none_iff]
    simp only [hclimb.mem_iff_isAround hfile, layoutIn?_eq_none_iff]
  have hnearest : ∀ layout, route.layout = some layout → ∃ directory,
      IsNearest files root route.file directory ∧ (layoutsIn files directory).getLast? = some layout :=
    fun layout hsome => hclimb.isNearest_of_findSome? hfile (hlayout ▸ hsome)
  refine ⟨root, rest, hroute.split, ⟨_, hclimb, fun walk hwalk => hclimb.unique hwalk⟩, fun walk hwalk => ?_,
    fun layout => ⟨hnearest layout, ?_⟩, hnone, fun layout hsome => ?_⟩
  · rw [hlayout, hclimb.unique hwalk]
  · -- Something is found, as there is a nearest directory, and it is of the same directory.
    rintro ⟨directory, hdirectory, hlast⟩
    cases hfound : route.layout with
    | none => exact absurd (hnone.mp hfound directory hdirectory.around) hdirectory.hasLayout
    | some found =>
      obtain ⟨other, hother, hlast'⟩ := hnearest found hfound
      rw [hdirectory.unique hother, hlast] at hlast'
      exact hlast'.symm
  · obtain ⟨directory, hdirectory, hlast⟩ := hnearest layout hsome
    obtain ⟨-, hin⟩ := List.mem_filter.mp (List.mem_of_getLast? hlast)
    obtain ⟨extension, -, rfl⟩ := of_decide_eq_true hin
    rcases hdirectory.around.1 with rfl | hbelow
    · exact ⟨_, rfl⟩
    · exact hbelow.trans ⟨_, rfl⟩

/-- Pages below layouts in several directories, one of which has two, and a layout beside the page directory. -/
def layeredFiles : List String :=
  ["pages/_layout.tsx", "src/_layout.tsx", "pages/shop/_layout.js", "pages/shop/_layout.tsx",
    "pages/shop/cart/items/list.tsx", "src/pages/a.tsx"]

theorem layout_is_nearest_layeredFiles : ∃ route ∈ table layeredFiles,
    route.file = "pages/shop/cart/items/list.tsx" ∧ route.layout = some "pages/shop/_layout.tsx" ∧
      IsNearest layeredFiles "pages" route.file "pages/shop" := by
  have hroute : ∃ route ∈ table layeredFiles, route.file = "pages/shop/cart/items/list.tsx" ∧
      route.layout = some "pages/shop/_layout.tsx" := by decide
  obtain ⟨route, hroute, hfile, hlayout⟩ := hroute
  obtain ⟨root, rest, hsplit, -, -, hnearest, -⟩ := layout_is_nearest hroute
  obtain ⟨directory, hdirectory, hlast⟩ := (hnearest _).mp hlayout
  have hroot : root = "pages" := by
    have hpages : splitPageRoot? "pages/shop/cart/items/list.tsx" = some ("pages", "shop/cart/items/list.tsx") := by
      decide
    rw [hfile, hpages] at hsplit
    cases hsplit
    rfl
  -- The layout found tells the directory.
  obtain ⟨-, hin⟩ := List.mem_filter.mp (List.mem_of_getLast? hlast)
  have hname : directory = "pages/shop" := (isLayoutIn_iff.mp (of_decide_eq_true hin)).2.symm.trans (by decide)
  rw [hroot, hname] at hdirectory
  exact ⟨route, hroute, hfile, hlayout, hdirectory⟩

end Route

end SpaMigration
