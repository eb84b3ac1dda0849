import Mathlib.Data.List.Nodup
import SpaMigration.Proofs.InsertionPlace
import SpaMigration.Proofs.RouteCoverage
import SpaMigration.Proofs.WordCasing

/-!
# The names of layouts

A layout is named after the words of its directory, without regard to other layouts, while pages whose names
would occur twice are numbered. Two layouts of a router module therefore share a name exactly when their
directories have the same words, whatever the case and the separators. The layouts of the module are told
apart, and each page is wrapped in its own, exactly when that does not happen.
-/
namespace SpaMigration

namespace Word

/-- The word for the page directory. -/
def root : Word := ⟨'R', ['o', 'o', 't'], rfl, rfl⟩

/-- The word that layouts end in. -/
def layout : Word := ⟨'L', ['a', 'y', 'o', 'u', 't'], rfl, rfl⟩

end Word

namespace TargetRoute

/-- The directory of a layout as seen from the page directory. -/
def layoutDirectory (file : String) : String :=
  let directory := ProjectPath.parent file
  match ProjectPath.splitPageRoot? (directory ++ "/") with
  | some (_, rest) => String.ofList (rest.toList.reverse.dropWhile (· == '/')).reverse
  | none => directory

/-- The words of the name of a layout, but for the last one. -/
def layoutWords (file : String) : List Word :=
  if (layoutDirectory file).isEmpty then [.root] else nameWords (layoutDirectory file) .layout

lemma layoutName_eq (file : String) :
    (layoutName file).toList = (layoutWords file).flatMap Word.text ++ Word.layout.text := by
  have hending : "Layout" = String.ofList Word.layout.text := by decide
  have hname : layoutName file = if (layoutDirectory file).isEmpty then "RootLayout"
      else identifier (layoutDirectory file) "Layout" := by
    cases hsplit : ProjectPath.splitPageRoot? (ProjectPath.parent file ++ "/") with
    | none => simp only [layoutName, layoutDirectory, hsplit]
    | some found => simp only [layoutName, layoutDirectory, hsplit]
  rw [hname, hending, layoutWords]
  split_ifs
  · decide
  · exact identifier_eq _ _

/-- Two layouts have the same name exactly when their directories have the same words. -/
theorem layoutName_eq_iff {file other : String} :
    layoutName file = layoutName other ↔ layoutWords file = layoutWords other := by
  rw [← String.toList_inj, layoutName_eq, layoutName_eq, List.append_cancel_right_eq]
  exact ⟨Word.flatMap_text_inj, congrArg _⟩

lemma getLast?_layoutName (file : String) : (layoutName file).toList.getLast? = some 't' := by
  rw [layoutName_eq, List.getLast?_append]
  rfl

/-- A name that is given once or numbered ends as it did or in a digit. -/
lemma getLast?_freshName (base : String) (used : List String) :
    (freshName base used).toList.getLast? = base.toList.getLast? ∨
      ∃ digit : Char, digit.isDigit = true ∧ (freshName base used).toList.getLast? = some digit := by
  simp only [freshName]
  split_ifs
  · cases hfound : ((List.range (used.length + 1)).map fun n => base ++ toString (n + 2)).find?
        fun name => !used.contains name with
    | none => exact .inl rfl
    | some name =>
      obtain ⟨n, _, rfl⟩ := List.mem_map.mp (List.mem_of_find?_eq_some hfound)
      have hnumber : (toString (n + 2)).toList = Nat.toDigits 10 (n + 2) := by simp
      have hne : Nat.toDigits 10 (n + 2) ≠ [] := by simp
      have hlast := List.getLast_mem hne
      refine .inr ⟨_, Nat.isDigit_of_mem_toDigits (by decide) (by decide) hlast, ?_⟩
      simp only [Option.getD_some, String.toList_append, hnumber]
      rw [List.getLast?_append, List.getLast?_eq_some_getLast hne]
      rfl
  · exact .inl rfl

/-- No page has a name that ends like those of layouts. -/
lemma getLast?_component {routes : List Route} {used : List String} {target : TargetRoute}
    (h : target ∈ assign routes used) : target.component.toList.getLast? ≠ some 't' := by
  induction routes generalizing used with
  | nil => simp [assign] at h
  | cons route rest ih =>
    rcases List.mem_cons.mp h with rfl | h
    · have hpage : (pageName route.file).toList.getLast? = some 'e' := by
        simp [pageName, identifier, List.getLast?_append]
      rcases getLast?_freshName (pageName route.file) used with hlast | ⟨digit, hdigit, hlast⟩
      · simp [ofRoute, hlast, hpage]
      · rw [ofRoute, hlast]
        rintro ⟨⟩
        exact absurd hdigit (by decide)
    · exact ih h

end TargetRoute

namespace RouterModule

open TargetRoute

/-- The constants that the module declares, each with the file it is loaded from. -/
def declared (routes : List TargetRoute) : List (String × String) :=
  (layouts routes).map (fun file => (layoutName file, file)) ++
    routes.map fun route => (route.component, route.file)

/-- The text of the module in front of the declarations. -/
def opening : String :=
  "import \x7b lazy, Suspense \x7d from 'react';\n" ++
    "import \x7b createBrowserRouter \x7d from 'react-router-dom';\n\n"

/-- The module is made of its declarations and of the entries of its routes. -/
lemma content_eq (routes : List TargetRoute) : content routes =
    opening ++ String.join ((declared routes).map fun constant => lazyDeclaration constant.1 constant.2) ++
      "\nexport const router = createBrowserRouter([\n" ++ String.join (routes.map entry) ++ "]);\n" := by
  have hdeclarations :
      String.join ((declared routes).map fun constant => lazyDeclaration constant.1 constant.2) =
        String.join ((layouts routes).map fun file => lazyDeclaration (layoutName file) file) ++
          String.join (routes.map fun route => lazyDeclaration route.component route.file) := by
    simp only [declared, List.map_append, List.map_map, Function.comp_def, String.join_append]
  rw [hdeclarations, ← String.append_assoc]
  rfl

/-- Each layout is declared under a name of its own, and the element of each route is its page inside the one
constant that is loaded from the layout of the route. -/
structure TellsLayoutsApart (routes : List TargetRoute) : Prop where
  distinct : ((layouts routes).map layoutName).Nodup
  wraps : ∀ route ∈ routes, ∀ layout ∈ route.layout, ∃ name,
    element route = "<" ++ name ++ ">" ++ ("<" ++ route.component ++ " />") ++ "</" ++ name ++ ">" ∧
    ∀ file, (name, file) ∈ declared routes ↔ file = layout

lemma mem_layouts {routes : List TargetRoute} {layout : String} :
    layout ∈ layouts routes ↔ ∃ route ∈ routes, layout ∈ route.layout := by
  simp [layouts]

/-- A constant that is named like a layout is a layout. -/
lemma mem_declared_layoutName {routes : List Route} {layout file : String} :
    (layoutName layout, file) ∈ declared (ofRoutes routes) ↔
      file ∈ layouts (ofRoutes routes) ∧ layoutName file = layoutName layout := by
  simp only [declared, List.mem_append, List.mem_map, Prod.mk.injEq]
  constructor
  · rintro (⟨found, hfound, hname, rfl⟩ | ⟨page, hpage, hname, rfl⟩)
    · exact ⟨hfound, hname⟩
    · have hlast := getLast?_component hpage
      rw [hname, getLast?_layoutName] at hlast
      exact absurd rfl hlast
  · rintro ⟨hfile, hname⟩
    exact .inl ⟨file, hfile, hname, rfl⟩

/-- The router module of any files declares its layouts and pages and lists its routes. The layouts are told
apart exactly when no two layouts in use have directories with the same words. -/
theorem layouts_told_apart_iff (files : List String) (targetSyntax : TargetSyntax) :
    let routes := ofRoutes (Route.table files)
    (render routes targetSyntax).content = opening ++
      String.join ((declared routes).map fun constant => lazyDeclaration constant.1 constant.2) ++
      "\nexport const router = createBrowserRouter([\n" ++ String.join (routes.map entry) ++ "]);\n" ∧
    (TellsLayoutsApart routes ↔ ∀ first ∈ layouts routes, ∀ second ∈ layouts routes,
      layoutWords first = layoutWords second → first = second) := by
  intro routes
  refine ⟨content_eq routes, fun h first hfirst second hsecond hwords => ?_, fun h => ⟨?_, ?_⟩⟩
  · exact List.inj_on_of_nodup_map h.distinct hfirst hsecond (layoutName_eq_iff.mpr hwords)
  · refine (Text.nodup_dedup _).map_on fun first hfirst second hsecond hname => ?_
    exact h first hfirst second hsecond (layoutName_eq_iff.mp hname)
  · intro route hroute layout hlayout
    have hused : layout ∈ layouts routes := mem_layouts.mpr ⟨route, hroute, hlayout⟩
    refine ⟨layoutName layout, by simp only [element, Option.mem_def.mp hlayout], fun file => ?_⟩
    rw [mem_declared_layoutName]
    constructor
    · rintro ⟨hfile, hname⟩
      exact h file hfile layout hused (layoutName_eq_iff.mp hname)
    · rintro rfl
      exact ⟨hused, rfl⟩

/-- Pages in two directories with layouts of their own. -/
def dashedFiles : List String :=
  ["pages/a-b/_layout.tsx", "pages/a-b/x.tsx", "pages/a/b/_layout.tsx", "pages/a/b/y.tsx"]

/-- Two layouts are declared under one name when their directories have the same words. -/
theorem layouts_share_name :
    let routes := ofRoutes (Route.table dashedFiles)
    layouts routes = ["pages/a-b/_layout.tsx", "pages/a/b/_layout.tsx"] ∧
    (layouts routes).map layoutName = ["ABLayout", "ABLayout"] ∧ ¬ TellsLayoutsApart routes := by
  intro routes
  have hlayouts : layouts routes = ["pages/a-b/_layout.tsx", "pages/a/b/_layout.tsx"] := by
    decide
  have hnames : (layouts routes).map layoutName = ["ABLayout", "ABLayout"] := by
    rw [hlayouts]
    decide
  refine ⟨hlayouts, hnames, fun h => ?_⟩
  have hdistinct := h.distinct
  rw [hnames] at hdistinct
  simp at hdistinct

end RouterModule

end SpaMigration
