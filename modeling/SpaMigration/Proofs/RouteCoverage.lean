import SpaMigration.Proofs.DiskPaths
import SpaMigration.Proofs.RunStages

/-!
# What becomes of the routes

A route is taken over into the router, or its file is reported as a request handler. Which of the two is
decided twice, from the address of the route and from the path of its file, and the two decisions do not
always meet: a route vanishes exactly when its file is named `api` at the top of the page directory, or
stands below `api` and is a declaration file or in an ignored directory.
-/
namespace SpaMigration

namespace Text

lemma splitOn_of_notMem {c : Char} {s : List Char} (h : c ∉ s) : splitOn c s = [s] := by
  induction s with
  | nil => rfl
  | cons d ds ih =>
    obtain ⟨hd, hds⟩ := not_or.mp (mt List.mem_cons.mpr h)
    simp [splitOn, Ne.symm hd, ih hds]

/-- What ends in a slash and starts a path starts the part of the path up to its last slash. -/
lemma append_slash_prefix_iff {s directory name : List Char} (hname : '/' ∉ name) :
    s ++ ['/'] <+: directory ++ name ↔ s ++ ['/'] <+: directory := by
  refine ⟨?_, fun h => h.trans (List.prefix_append _ _)⟩
  rintro ⟨rest, hrest⟩
  rcases List.append_eq_append_iff.mp hrest with ⟨more, hmore, _⟩ | ⟨more, hmore, hsplit⟩
  · exact ⟨more, hmore.symm⟩
  · by_cases hempty : more = []
    · rw [hempty, List.append_nil] at hmore
      exact hmore ▸ List.prefix_rfl
    · -- Otherwise the slash would stand in the name.
      have hlast := congrArg List.getLast? hmore
      rw [List.getLast?_append, List.getLast?_append] at hlast
      have hslash : '/' ∈ more := by
        cases hmoreLast : more.getLast? with
        | none => exact absurd (List.getLast?_eq_none_iff.mp hmoreLast) hempty
        | some c =>
          rw [hmoreLast] at hlast
          cases hlast
          exact List.mem_of_getLast? hmoreLast
      exact absurd (hsplit ▸ List.mem_append_left rest hslash) hname

end Text

open Text

namespace ProjectPath

/-- Leaving out an extension keeps the directories of a path. -/
lemma slash_prefix_stem_iff (s : List Char) (path : String) :
    s ++ ['/'] <+: (stem path).toList ↔ s ++ ['/'] <+: path.toList := by
  have hname := DiskPath.slash_notMem_splitName_snd path.toList
  have hpath := splitName_append path.toList
  simp only [stem]
  split
  case _ before after hsplit =>
    split_ifs
    · rfl
    · have hbefore : '/' ∉ before := fun hin =>
        hname (splitLast?_eq_some hsplit ▸ List.mem_append_left _ hin)
      rw [String.toList_ofList, append_slash_prefix_iff hbefore]
      conv_rhs => rw [← hpath, append_slash_prefix_iff hname]
  · rfl

/-- The extension of a path is the one of the name behind its last slash, if that is a name. -/
lemma extension?_append_slash (s : List Char) {name : List Char} (hslash : '/' ∉ name) (hempty : name ≠ [])
    (hdot : name ≠ ['.']) :
    extension? (String.ofList (s ++ '/' :: name)) = extension? (String.ofList name) := by
  simp [extension?, splitOn_append_cons, splitOn_of_notMem hslash, hempty, hdot]

/-- The name behind the last slash is a file name of its own, and no directory. -/
def HasProperName (path : String) : Prop :=
  (splitName path.toList).2 ≠ [] ∧ (splitName path.toList).2 ≠ ['.']

lemma extension?_eq_fileName {path : String} (h : HasProperName path) : extension? path = extension? (fileName path) := by
  have hslash := DiskPath.slash_notMem_splitName_snd path.toList
  have hpath := splitName_append path.toList
  rcases DiskPath.splitName_fst_eq path.toList with hfst | ⟨s, hfst⟩
  · rw [hfst, List.nil_append] at hpath
    rw [fileName, hpath, String.ofList_toList]
  · rw [hfst, List.append_assoc, List.singleton_append] at hpath
    have hwhole : path = String.ofList (s ++ '/' :: (splitName path.toList).2) := by
      rw [hpath, String.ofList_toList]
    calc extension? path
        = extension? (String.ofList (s ++ '/' :: (splitName path.toList).2)) := congrArg _ hwhole
      _ = extension? (fileName path) := extension?_append_slash s hslash h.1 h.2

/-- Lock files are no source files, in whatever directory they are. -/
lemma sourceKind?_of_lockFile {path : String} (h : fileName path ∈ lockFiles) : sourceKind? path = none := by
  have hall : ∀ name ∈ lockFiles, sourceKind? name = none ∧ name.toList ≠ [] ∧ name.toList ≠ ['.'] := by decide
  obtain ⟨hkind, hproper⟩ := hall _ h
  have hname : HasProperName path := by simpa [HasProperName, fileName] using hproper
  rwa [sourceKind?, ← extension?_eq_fileName hname] at hkind

/-- A source file is left alone when it is a declaration file or in an ignored directory. -/
lemma isSkipped_iff {path : String} (h : (sourceKind? path).isSome) :
    isSkipped path = true ↔ ".d.ts".toList <:+ (fileName path).toList ∨ isIgnored path = true := by
  have hlock : fileName path ∉ lockFiles := fun hin => by simp [sourceKind?_of_lockFile hin] at h
  have hkind : (sourceKind? path).isNone = false := by simpa using h
  simp [isSkipped, hlock, hkind, endsWith_iff]

end ProjectPath

namespace Route

/-- A route and what it is made of: a source file in a page directory. The address is the path from there
without its extension, and without the last part where that is `index`. -/
structure IsOf (route : Route) (file : String) (root rest : String) : Prop where
  file_eq : route.file = file
  split : ProjectPath.splitPageRoot? file = some (root, rest)
  isSource : (ProjectPath.sourceKind? file).isSome
  path_eq : (ProjectPath.stem rest).toList = "index".toList ∧ route.path.toList = ['/'] ∨
    (∃ directory, (ProjectPath.stem rest).toList = directory ++ "/index".toList ∧
      route.path.toList = '/' :: (directory ++ ['/'])) ∨
    route.path.toList = '/' :: (ProjectPath.stem rest).toList

lemma exists_isOf {files : List String} {file : String} {route : Route}
    (h : ofFile? files file = some route) : ∃ root rest, route.IsOf file root rest := by
  simp only [ofFile?, Option.bind_eq_bind, Option.bind_eq_some_iff] at h
  obtain ⟨⟨root, rest⟩, hsplit, h⟩ := h
  by_cases hkind : (ProjectPath.sourceKind? file).isNone
  · rw [if_pos hkind] at h
    cases h
  by_cases hprivate : (ProjectPath.segments rest).any fun part => part.toList.head? == some '_'
  · rw [if_neg hkind, if_pos hprivate] at h
    cases h
  simp only [hkind, hprivate, if_false, Bool.false_eq_true, Option.pure_def,
    Option.some.injEq] at h
  refine ⟨root, rest, by rw [← h], hsplit, ?_, ?_⟩
  · exact Option.isSome_iff_ne_none.mpr fun hnone => hkind (by simp [hnone])
  · have hpath : route.path.toList = '/' :: (if (ProjectPath.stem rest).toList = "index".toList then some []
        else (dropSuffix? "/index".toList (ProjectPath.stem rest).toList).map (· ++ ['/'])).getD
          (ProjectPath.stem rest).toList := by
      rw [← h, String.toList_ofList]
    rw [hpath]
    split_ifs with hindex
    · exact .inl ⟨hindex, rfl⟩
    · cases hdrop : dropSuffix? "/index".toList (ProjectPath.stem rest).toList with
      | none => exact .inr (.inr rfl)
      | some directory => exact .inr (.inl ⟨directory, dropSuffix?_eq_some_iff.mp hdrop, rfl⟩)

variable {files : List String} {route : Route} {file root rest : String}

/-- The address of a route is below `api` exactly when its file is, or when the file is named so itself. -/
lemma IsOf.isApi_iff (h : route.IsOf file root rest) :
    route.isApi = true ↔
      ProjectPath.stem rest = "api" ∨ "api/".toList <+: rest.toList := by
  have hisApi : route.isApi = true ↔
      route.path.toList = "/api".toList ∨ "/api/".toList <+: route.path.toList := by
    simp [isApi, startsWith_iff, ← String.toList_inj]
  have hslash : "api/".toList = "api".toList ++ ['/'] := by decide
  have hstem := ProjectPath.slash_prefix_stem_iff "api".toList rest
  rw [← hslash] at hstem
  rw [hisApi, ← hstem, ← String.toList_inj]
  rcases h.path_eq with ⟨hindex, hpath⟩ | ⟨directory, hindex, hpath⟩ | hpath
  · rw [hindex, hpath]
    decide
  · have hbelow : "api/".toList <+: directory ++ "/index".toList ↔ "api/".toList <+: directory ++ ['/'] := by
      have hsplit : directory ++ "/index".toList = (directory ++ ['/']) ++ "index".toList := by simp
      rw [hslash, hsplit, append_slash_prefix_iff (by decide)]
    have hprefix : "/api/".toList <+: '/' :: (directory ++ ['/']) ↔ "api/".toList <+: directory ++ ['/'] := by
      simp
    have hpathNe : '/' :: (directory ++ ['/']) ≠ "/api".toList := fun heq => by
      have hlast := congrArg List.getLast? heq
      rw [← List.cons_append, List.getLast?_concat] at hlast
      simp at hlast
    have hstemNe : directory ++ "/index".toList ≠ "api".toList := fun heq => by
      simpa using congrArg List.length heq
    rw [hindex, hpath, hbelow, hprefix, or_iff_right hpathNe, or_iff_right hstemNe]
  · rw [hpath]
    simp

/-- The files of handlers that are reported: those below `api` that are not left alone. -/
lemma IsOf.isHandler_iff (h : route.IsOf file root rest) :
    ApiRoute.isHandler file = true ↔ "api/".toList <+: rest.toList ∧
      ¬ (".d.ts".toList <:+ (ProjectPath.fileName file).toList ∨ ProjectPath.isIgnored file = true) := by
  have hskipped := ProjectPath.isSkipped_iff h.isSource
  rw [← hskipped]
  simp [ApiRoute.isHandler, h.split, startsWith_iff]

/-- Routes of a table with one file are one route. -/
lemma eq_of_mem_table {other : Route} (hroute : route ∈ table files) (hother : other ∈ table files)
    (hfile : other.file = route.file) : other = route := by
  obtain ⟨file, _, hof⟩ := List.mem_filterMap.mp hroute
  obtain ⟨file', _, hof'⟩ := List.mem_filterMap.mp hother
  obtain ⟨_, _, h⟩ := exists_isOf hof
  obtain ⟨_, _, h'⟩ := exists_isOf hof'
  have hsame : file' = file := by rw [← h.file_eq, ← h'.file_eq, hfile]
  rw [hsame, hof] at hof'
  exact (Option.some.inj hof').symm

end Route

namespace TargetRoute

/-- Every route gets a target under some name. -/
lemma exists_mem_assign {routes : List Route} {route : Route} (h : route ∈ routes) (used : List String) :
    ∃ component, ofRoute route component ∈ assign routes used := by
  induction routes generalizing used with
  | nil => simp at h
  | cons first rest ih =>
    rcases List.mem_cons.mp h with rfl | h
    · exact ⟨_, List.mem_cons_self⟩
    · obtain ⟨component, hmem⟩ := ih h (freshName (pageName first.file) used :: used)
      exact ⟨component, List.mem_cons_of_mem _ hmem⟩

/-- Every target is one of a route. -/
lemma exists_of_mem_assign {routes : List Route} {target : TargetRoute} {used : List String}
    (h : target ∈ assign routes used) : ∃ route ∈ routes, target.file = route.file := by
  induction routes generalizing used with
  | nil => simp [assign] at h
  | cons first rest ih =>
    rcases List.mem_cons.mp h with rfl | h
    · exact ⟨first, List.mem_cons_self, rfl⟩
    · obtain ⟨route, hroute, hfile⟩ := ih h
      exact ⟨route, List.mem_cons_of_mem _ hroute, hfile⟩

/-- The routes of a table that have a target are those whose address is not below `api`. -/
theorem exists_target_iff {files : List String} {route : Route} (hroute : route ∈ Route.table files) :
    (∃ component, ofRoute route component ∈ ofRoutes (Route.table files)) ↔ route.isApi = false := by
  have hkept : ((Route.apiRoutes (Route.table files)).map (·.file)).contains route.file = route.isApi := by
    rw [Bool.eq_iff_iff, List.contains_iff_mem, List.mem_map]
    constructor
    · rintro ⟨other, hother, hfile⟩
      obtain ⟨hmem, hapi⟩ := List.mem_filter.mp hother
      rwa [← Route.eq_of_mem_table hroute hmem hfile]
    · exact fun hapi => ⟨route, List.mem_filter.mpr ⟨hroute, hapi⟩, rfl⟩
  constructor
  · rintro ⟨component, hmem⟩
    obtain ⟨other, hother, hfile⟩ := exists_of_mem_assign hmem
    obtain ⟨hmem, hnot⟩ := List.mem_filter.mp hother
    have hsame := Route.eq_of_mem_table hroute hmem hfile.symm
    simp only [hsame, hkept] at hnot
    simpa using hnot
  · intro hapi
    refine exists_mem_assign (List.mem_filter.mpr ⟨hroute, ?_⟩) []
    rw [hkept, hapi]
    rfl

end TargetRoute

namespace RouterModule

lemma infix_join {texts : List String} {text : String} (h : text ∈ texts) :
    text.toList <:+: (String.join texts).toList := by
  obtain ⟨before, after, rfl⟩ := List.append_of_mem h
  rw [String.toList_join, List.flatMap_append, List.flatMap_cons, ← List.append_assoc]
  exact ⟨_, _, rfl⟩

/-- The module declares the page of each of its routes and lists the route. -/
lemma infix_content {routes : List TargetRoute} {target : TargetRoute} (h : target ∈ routes) :
    (lazyDeclaration target.component target.file).toList <:+: (content routes).toList ∧
    (entry target).toList <:+: (content routes).toList := by
  have hdeclaration : (lazyDeclaration target.component target.file).toList <:+:
      (String.join (routes.map fun route => lazyDeclaration route.component route.file)).toList :=
    infix_join (List.mem_map.mpr ⟨target, h, rfl⟩)
  have hentry : (entry target).toList <:+: (String.join (routes.map entry)).toList :=
    infix_join (List.mem_map.mpr ⟨target, h, rfl⟩)
  have hparts : ∀ front declarations middle entries ending : String,
      declarations.toList <:+: (front ++ declarations ++ middle ++ entries ++ ending).toList ∧
        entries.toList <:+: (front ++ declarations ++ middle ++ entries ++ ending).toList := by
    intro front declarations middle entries ending
    simp only [String.toList_append]
    exact ⟨⟨front.toList, middle.toList ++ entries.toList ++ ending.toList, by simp⟩,
      ⟨front.toList ++ declarations.toList ++ middle.toList, ending.toList, by simp⟩⟩
  obtain ⟨hfirst, hsecond⟩ := hparts _ _ _ _ _
  exact ⟨hdeclaration.trans hfirst, hentry.trans hsecond⟩

end RouterModule

namespace Migration

variable {input : MigrationInput} {route : Route}

/-- The route is in the generated router, which loads its page under some name and lists it. -/
def IsRouted (input : MigrationInput) (route : Route) : Prop :=
  ∃ component,
    TargetRoute.ofRoute route component ∈ TargetRoute.ofRoutes (Route.table input.project.paths) ∧
    ∃ router ∈ (run input).1.newFiles,
      router.path = "src/router." ++ input.options.targetSyntax.markupExtension ∧
      (RouterModule.lazyDeclaration component route.file).toList <:+: router.content.toList ∧
      (RouterModule.entry (TargetRoute.ofRoute route component)).toList <:+: router.content.toList

/-- The file of the route is among the request handlers, and there is a warning that it needs a server. -/
def IsReported (input : MigrationInput) (route : Route) : Prop :=
  ∃ handler ∈ (ApiRoute.survey input.project).1, handler.file = route.file ∧
    handler.serverWarning.report ∈ (run input).1.warnings

/-- Neither of the two ways of a route is open to the file: it is named `api` in the page directory itself,
or it stands below `api` and is left alone as a declaration file or in an ignored directory. -/
def FallsBetween (file : String) : Prop :=
  ∃ split ∈ ProjectPath.splitPageRoot? file,
    ProjectPath.stem split.2 = "api" ∨ "api/".toList <+: split.2.toList ∧
      (".d.ts".toList <:+ (ProjectPath.fileName file).toList ∨ ProjectPath.isIgnored file = true)

instance (file : String) : Decidable (FallsBetween file) :=
  inferInstanceAs (Decidable (∃ split ∈ ProjectPath.splitPageRoot? file, _))

lemma isRouted_iff (hrouter : input.options.useRouter = true)
    (hroute : route ∈ Route.table input.project.paths) : IsRouted input route ↔ route.isApi = false := by
  rw [← TargetRoute.exists_target_iff hroute]
  constructor
  · rintro ⟨component, htarget, _⟩
    exact ⟨component, htarget⟩
  · rintro ⟨component, htarget⟩
    let router := RouterModule.render (TargetRoute.ofRoutes (Route.table input.project.paths))
      input.options.targetSyntax
    have hnonempty : (TargetRoute.ofRoutes (Route.table input.project.paths)).isEmpty = false :=
      List.isEmpty_eq_false_iff.mpr (List.ne_nil_of_mem htarget)
    have hmade : router ∈ (routedState input).result.newFiles := by
      simp only [routedState, routeStage, hrouter, hnonempty, if_true, Bool.false_eq_true, if_false]
      exact List.mem_append_right _ (List.mem_singleton_self router)
    obtain ⟨hdeclaration, hentry⟩ := RouterModule.infix_content htarget
    exact ⟨component, htarget, router, mem_run_newFiles hmade, rfl, hdeclaration, hentry⟩

lemma isReported_iff (hapi : input.options.convertApiRoutes = true)
    (hfile : route.file ∈ input.project.paths) :
    IsReported input route ↔ ApiRoute.isHandler route.file = true := by
  constructor
  · rintro ⟨handler, hhandler, hsame, _⟩
    obtain ⟨found, hfound, rfl⟩ := List.mem_map.mp hhandler
    obtain ⟨file, hmem, rfl⟩ := List.mem_map.mp hfound
    rw [← hsame]
    exact (List.mem_filter.mp hmem).2
  · intro hhandler
    obtain ⟨file, hmem, hpath⟩ := List.mem_map.mp hfile
    have hfound : ApiRoute.ofFile file ∈
        (input.project.filter fun file => ApiRoute.isHandler file.path).map ApiRoute.ofFile :=
      List.mem_map_of_mem (List.mem_filter.mpr ⟨hmem, by simpa [hpath] using hhandler⟩)
    refine ⟨(ApiRoute.ofFile file).1, List.mem_map_of_mem hfound, hpath, ?_⟩
    have hwarning : (ApiRoute.ofFile file).1.serverWarning ∈ (ApiRoute.ofFile file).2 :=
      List.mem_append_right _ (List.mem_singleton_self _)
    have hrecorded : (ApiRoute.ofFile file).1.serverWarning ∈ (surveyedState input).records := by
      simp only [surveyedState, apiStage, hapi, if_true, MigrationState.inform, MigrationState.addRecords]
      exact List.mem_append_right _ (List.mem_flatMap.mpr ⟨_, hfound, hwarning⟩)
    exact mem_run_warnings hrecorded rfl

/-- In a run that converts routes and looks for request handlers, a route of the table is taken over into
the router or its file reported with a warning, unless it falls between the two; then neither happens. -/
theorem route_kept_iff (input : MigrationInput) (hrouter : input.options.useRouter = true)
    (hapi : input.options.convertApiRoutes = true) {route : Route}
    (hroute : route ∈ Route.table input.project.paths) :
    IsRouted input route ∨ IsReported input route ↔ ¬ FallsBetween route.file := by
  obtain ⟨file, hfile, hof⟩ := List.mem_filterMap.mp hroute
  obtain ⟨root, rest, hof⟩ := Route.exists_isOf hof
  have hsplit : FallsBetween route.file ↔ ProjectPath.stem rest = "api" ∨ "api/".toList <+: rest.toList ∧
      (".d.ts".toList <:+ (ProjectPath.fileName file).toList ∨ ProjectPath.isIgnored file = true) := by
    simp [FallsBetween, hof.file_eq, hof.split]
  rw [isRouted_iff hrouter hroute, isReported_iff hapi (hof.file_eq ▸ hfile), hsplit, ← Bool.not_eq_true,
    hof.isApi_iff, hof.file_eq, hof.isHandler_iff]
  by_cases hbelow : "api/".toList <+: rest.toList
  · -- A file below `api` is not itself named so in the page directory.
    have hnamed : ProjectPath.stem rest ≠ "api" := by
      intro hstem
      have hprefix := (ProjectPath.slash_prefix_stem_iff "api".toList rest).mpr hbelow
      rw [hstem] at hprefix
      exact absurd hprefix (by decide)
    simp only [hbelow, hnamed, or_true, not_true_eq_false, false_or, true_and]
  · simp only [hbelow, or_false, false_and]

/-- A page, two request handlers and files that are taken for handlers by their address alone. -/
def handlerFiles : MigrationInput where
  project := ["pages/index.tsx", "pages/api/users.ts", "pages/api/index.js", "pages/api.ts",
    "pages/api/types.d.ts", "src/pages/api/build/run.ts"].map fun path => ⟨path, .inMemory ""⟩

theorem route_kept_iff_handlerFiles :
    handlerFiles.options.useRouter = true ∧ handlerFiles.options.convertApiRoutes = true ∧
    (Route.table handlerFiles.project.paths).map (·.file) = handlerFiles.project.paths ∧
    ∀ route ∈ Route.table handlerFiles.project.paths,
      (IsRouted handlerFiles route ∨ IsReported handlerFiles route ↔
        route.file ∈ ["pages/index.tsx", "pages/api/users.ts", "pages/api/index.js"]) := by
  refine ⟨rfl, rfl, by decide, fun route hroute => ?_⟩
  have hbetween : ∀ route ∈ Route.table handlerFiles.project.paths, ¬ FallsBetween route.file ↔
      route.file ∈ ["pages/index.tsx", "pages/api/users.ts", "pages/api/index.js"] := by decide
  exact (route_kept_iff handlerFiles rfl rfl hroute).trans (hbetween route hroute)

/-- A request handler in a file of its own. -/
def loneHandler : MigrationInput where
  project := [⟨"pages/api.ts",
    .inMemory "export default function handler(req, res) \x7b res.json(1); \x7d\n"⟩]

/-- The route of a handler in a file named `api` is neither in the router nor reported. -/
theorem lone_handler_vanishes :
    loneHandler.options.useRouter = true ∧ loneHandler.options.convertApiRoutes = true ∧
    ∃ route ∈ Route.table loneHandler.project.paths,
      ¬ IsRouted loneHandler route ∧ ¬ IsReported loneHandler route := by
  have hroute : ∃ route ∈ Route.table loneHandler.project.paths, route.isApi = true ∧
      route.file ∈ loneHandler.project.paths ∧ ApiRoute.isHandler route.file = false := by decide
  obtain ⟨route, hroute, hapi, hfile, hhandler⟩ := hroute
  refine ⟨rfl, rfl, route, hroute, ?_, ?_⟩
  · rw [isRouted_iff rfl hroute, hapi]
    decide
  · rw [isReported_iff rfl hfile, hhandler]
    decide

end Migration

end SpaMigration
