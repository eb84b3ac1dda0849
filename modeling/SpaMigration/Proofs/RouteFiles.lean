import Mathlib.Data.List.Basic
import SpaMigration.Proofs.RouteCoverage
import SpaMigration.Proofs.RouteFields

/-!
# The file of a route

An address is the path of its file, less the page directory, the extension and, for an index, the last part.
Nothing else is lost: page directory, address, `index` where it was left out and extension make up the path
again. So two files of one page directory with the same extension have different addresses, unless one of them
is an index and the other is not.

The extension is found twice by different rules. What decides whether a file is a source does not count a slash
or a dot at the end of the path, and what makes the address does. Where they differ the address keeps all.
-/
namespace SpaMigration

open Text

namespace ProjectPath

/-- The extensions of source files. -/
def sourceExtensions : List String := ["js", "mjs", "cjs", "ts", "mts", "cts", "jsx", "tsx"]

/-- The page directory that a path lies in. -/
def pageRoot? (path : String) : Option String := (splitPageRoot? path).map (·.1)

/-- What a path has behind its stem. -/
def ending (path : String) : String := String.ofList (path.toList.drop (stem path).toList.length)

variable {path : String}

lemma mem_sourceExtensions (h : (sourceKind? path).isSome) :
    ∃ extension ∈ sourceExtensions, extension? path = some extension := by
  unfold sourceKind? at h
  split at h
  case h_9 => simp at h
  all_goals
    rename_i hextension
    exact ⟨_, by simp [sourceExtensions], hextension⟩

/-- A path has nothing behind its stem, or a dot and what follows the last dot of its file name. -/
lemma stem_cases (path : String) : stem path = path ∨ ∃ before after,
    splitLast? '.' (splitName path.toList).2 = some (before, after) ∧ before ≠ [] ∧
      path.toList = (stem path).toList ++ '.' :: after := by
  simp only [stem]
  split
  · rename_i before after hsplit
    by_cases hbefore : before.isEmpty
    · exact .inl (by rw [if_pos hbefore])
    · refine .inr ⟨before, after, hsplit, by simpa using hbefore, ?_⟩
      have hname := splitLast?_eq_some hsplit
      rw [if_neg hbefore, String.toList_ofList, List.append_assoc, ← hname, splitName_append]
  · exact .inl rfl

lemma stem_append_ending (path : String) : path.toList = (stem path).toList ++ (ending path).toList := by
  rw [ending, String.toList_ofList]
  rcases stem_cases path with hstem | ⟨before, after, -, -, hpath⟩
  · rw [hstem, List.drop_length, List.append_nil]
  · conv_rhs => rw [hpath, List.drop_left]
    exact hpath

lemma ending_cases (path : String) : ending path = "" ∨ ∃ before after,
    splitLast? '.' (splitName path.toList).2 = some (before, after) ∧ before ≠ [] ∧
      ending path = "." ++ String.ofList after := by
  rcases stem_cases path with hstem | ⟨before, after, hsplit, hbefore, hpath⟩
  · exact .inl (by rw [ending, hstem, List.drop_length, String.ofList_nil])
  · refine .inr ⟨before, after, hsplit, hbefore, String.toList_inj.mp ?_⟩
    rw [stem_append_ending path] at hpath
    simpa using List.append_cancel_left hpath

/-- Of a source file, the stem leaves out nothing or one of the extensions of sources. -/
theorem ending_of_source (h : (sourceKind? path).isSome) :
    ending path = "" ∨ ∃ extension ∈ sourceExtensions, ending path = "." ++ extension := by
  refine (ending_cases path).imp_right fun ⟨before, after, hsplit, hbefore, hending⟩ => ?_
  obtain ⟨extension, hmem, hextension⟩ := mem_sourceExtensions h
  have hname := splitLast?_eq_some hsplit
  have hproper : HasProperName path := by
    rw [HasProperName, hname]
    constructor <;> simp [hbefore, List.append_eq_singleton_iff]
  suffices hafter : extension = String.ofList after from ⟨extension, hmem, hafter ▸ hending⟩
  have hslash := DiskPath.slash_notMem_splitName_snd path.toList
  rw [extension?_eq_fileName hproper, extension?, fileName, String.toList_ofList,
    splitOn_of_notMem hslash, List.filter_cons_of_pos] at hextension
  · by_cases hup : (splitName path.toList).2 = ['.', '.']
    · simp [hup] at hextension
    · have hfound : String.ofList after = extension := by simpa [hup, hsplit, hbefore] using hextension
      exact hfound.symm
  · simpa [HasProperName] using hproper

/-- A directory in front of a path leaves the ending as it is. -/
lemma ending_append_slash (directory rest : String) : ending (directory ++ "/" ++ rest) = ending rest := by
  have hslash := DiskPath.slash_notMem_splitName_snd rest.toList
  have hrest := splitName_append rest.toList
  have hpath : (directory ++ "/" ++ rest).toList = directory.toList ++ '/' :: rest.toList := by simp
  -- The two paths have one file name, so their stems leave out the same.
  have hname : (splitName (directory ++ "/" ++ rest).toList) =
      (directory.toList ++ '/' :: (splitName rest.toList).1, (splitName rest.toList).2) := by
    rw [hpath]
    rcases DiskPath.splitName_fst_eq rest.toList with hfst | ⟨s, hfst⟩
    · rw [hfst, List.nil_append] at hrest
      rw [hfst, hrest, DiskPath.splitName_append_slash _ (hrest ▸ hslash)]
    · rw [hfst, List.append_assoc, List.singleton_append] at hrest
      have hsplit : directory.toList ++ '/' :: rest.toList =
          (directory.toList ++ '/' :: s) ++ '/' :: (splitName rest.toList).2 := by
        conv_lhs => rw [← hrest]
        rw [List.append_assoc, List.cons_append]
      rw [hsplit, DiskPath.splitName_append_slash _ hslash, hfst, List.append_assoc, List.cons_append]
  have hstem : (stem (directory ++ "/" ++ rest)).toList = directory.toList ++ '/' :: (stem rest).toList := by
    simp only [stem, hname]
    split
    · split_ifs
      · exact hpath
      · simp
    · exact hpath
  apply String.toList_inj.mp
  refine (List.append_right_inj (stem (directory ++ "/" ++ rest)).toList).mp ?_
  rw [← stem_append_ending, hpath, hstem, List.append_assoc, List.cons_append, ← stem_append_ending]

end ProjectPath

namespace Route

variable {files others : List String} {route other : Route}

/-- Page directory, address, `index` where it was left out and ending make up the file. -/
def IsSpelled (route : Route) (root ending : String) : Prop :=
  ProjectPath.pageRoot? route.file = some root ∧ ProjectPath.ending route.file = ending ∧
    route.file = root ++ route.path ++ (if route.isIndex then "index" else "") ++ ending

lemma isSpelled_of_mem_table (h : route ∈ table files) : ∃ root ∈ ProjectPath.pageRoots, ∃ ending,
    (ending = "" ∨ ∃ extension ∈ ProjectPath.sourceExtensions, ending = "." ++ extension) ∧
      route.IsSpelled root ending := by
  obtain ⟨file, -, hof⟩ := List.mem_filterMap.mp h
  obtain ⟨_, _, hsource⟩ := exists_isOf hof
  obtain ⟨root, rest, address, isIndex, hsplit, hstem, rfl⟩ := exists_eq_underAddress hof
  have hfile : file = root ++ "/" ++ rest := eq_append_of_splitPageRoot? hsplit
  have hroot : root ∈ ProjectPath.pageRoots := by
    obtain ⟨found, hfound, hdrop⟩ := List.exists_of_findSome?_eq_some hsplit
    obtain ⟨_, -, hpair⟩ := Option.map_eq_some_iff.mp hdrop
    cases hpair
    exact hfound
  refine ⟨root, hroot, _, ProjectPath.ending_of_source hsource.isSource, ?_, rfl, ?_⟩
  · show ProjectPath.pageRoot? file = some root
    rw [ProjectPath.pageRoot?, hsplit, Option.map_some]
  · show file = root ++ String.ofList address ++ (if isIndex then "index" else "") ++ ProjectPath.ending file
    apply String.toList_inj.mp
    calc file.toList
        = root.toList ++ '/' :: rest.toList := by rw [hfile]; simp
      _ = root.toList ++ ('/' :: (ProjectPath.stem rest).toList ++ (ProjectPath.ending rest).toList) := by
          rw [List.cons_append, ← ProjectPath.stem_append_ending]
      _ = (root ++ String.ofList address ++ (if isIndex then "index" else "") ++
            ProjectPath.ending file).toList := by
          rw [hstem, hfile, ProjectPath.ending_append_slash]
          simp only [String.toList_append, String.toList_ofList, List.append_assoc]

lemma map_file_table (files : List String) :
    (table files).map (·.file) = files.filter fun file => (ofFile? files file).isSome := by
  rw [table, List.map_filterMap, ← List.filterMap_eq_filter]
  apply List.filterMap_congr
  intro file _
  cases hof : ofFile? files file with
  | none => simp [Option.guard, hof]
  | some route =>
    obtain ⟨_, _, hroute⟩ := exists_isOf hof
    simp [Option.guard, hof, hroute.file_eq]

/-- The files of routes stand in the order of all files. Each is spelled by its page directory, address and
ending, so no two files in one page directory with one ending share their address, both of them as an index or
neither. -/
theorem address_determines_file (files : List String) :
    ((table files).map (·.file)).Sublist files ∧
    (∀ route ∈ table files, ∃ root ∈ ProjectPath.pageRoots, ∃ ending,
      (ending = "" ∨ ∃ extension ∈ ProjectPath.sourceExtensions, ending = "." ++ extension) ∧
        route.IsSpelled root ending) ∧
    ∀ route ∈ table files, ∀ other ∈ table files,
      ProjectPath.pageRoot? route.file = ProjectPath.pageRoot? other.file →
      ProjectPath.ending route.file = ProjectPath.ending other.file → route.file ≠ other.file →
      ¬ (route.path = other.path ∧ route.isIndex = other.isIndex) := by
  refine ⟨?_, fun route hroute => isSpelled_of_mem_table hroute, ?_⟩
  · rw [map_file_table]
    exact List.filter_sublist
  · rintro route hroute other hother hroot hending hne ⟨hpath, hindex⟩
    obtain ⟨root, -, ending, -, hsame, rfl, hfile⟩ := isSpelled_of_mem_table hroute
    obtain ⟨root', -, ending', -, hsame', rfl, hfile'⟩ := isSpelled_of_mem_table hother
    obtain rfl : root = root' := Option.some.inj (by rw [← hsame, hroot, hsame'])
    apply hne
    rw [hfile, hfile', hpath, hindex, hending]

/-- Pages, one of them an index, a directory that is named like a source, and a file that is no page. -/
def pagesAndOthers : List String :=
  ["pages/blog.tsx", "README.md", "pages/blog/index.tsx", "src/pages/blog.tsx", "pages/draft.ts/",
    "pages/..jsx", "pages/_app.tsx"]

theorem address_determines_file_pagesAndOthers :
    (table pagesAndOthers).map (fun route => (route.file, route.path, route.isIndex)) =
      [("pages/blog.tsx", "/blog", false), ("pages/blog/index.tsx", "/blog/", true),
        ("src/pages/blog.tsx", "/blog", false), ("pages/draft.ts/", "/draft.ts/", false),
        ("pages/..jsx", "/.", false)] ∧
    ((table pagesAndOthers).map (·.file)).Sublist pagesAndOthers ∧
    (∀ route ∈ table pagesAndOthers, ∃ root ∈ ProjectPath.pageRoots, ∃ ending, route.IsSpelled root ending) ∧
    ∃ route ∈ table pagesAndOthers, ∃ other ∈ table pagesAndOthers,
      route.file = "pages/blog.tsx" ∧ other.file = "pages/blog/index.tsx" ∧
      ¬ (route.path = other.path ∧ route.isIndex = other.isIndex) := by
  obtain ⟨hsublist, hspelled, hdistinct⟩ := address_determines_file pagesAndOthers
  obtain ⟨route, hroute, other, hother, hfile, hfile'⟩ : ∃ route ∈ table pagesAndOthers,
      ∃ other ∈ table pagesAndOthers, route.file = "pages/blog.tsx" ∧ other.file = "pages/blog/index.tsx" := by
    decide
  refine ⟨by decide, hsublist, fun route hroute => ?_, route, hroute, other, hother, hfile, hfile', ?_⟩
  · obtain ⟨root, hroot, ending, -, hspells⟩ := hspelled route hroute
    exact ⟨root, hroot, ending, hspells⟩
  · apply hdistinct route hroute other hother
    · rw [hfile, hfile']
      decide
    · rw [hfile, hfile']
      decide
    · rw [hfile, hfile']
      decide

end Route

end SpaMigration
