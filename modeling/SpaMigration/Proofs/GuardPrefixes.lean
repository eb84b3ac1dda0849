import SpaMigration.Proofs.DiskPaths
import SpaMigration.Proofs.PatternPreference
import SpaMigration.RouteGuard

/-!
# Which paths a guard covers

A matcher is a row of segments between slashes, each a static text or a named parameter; the paths that it
matches put some value in the place of each parameter. The prefix of the matcher is what it is without its
parameters. That is the beginning of a path as long as nothing stands behind a parameter: behind a parameter
that is not at the end, the slashes on both sides of it meet, and no path of the matcher goes on like that.
-/
namespace SpaMigration.RouteGuard

open Pattern (Passes Prefers spliceFrom)

/-- A static part of a matcher. -/
structure StaticText where
  chars : List Char
  isPlain : (chars.all fun x => !":(*+?".toList.contains x) = true

lemma StaticText.notMem {text : StaticText} {x : Char} (hx : ":(*+?".toList.contains x = true) : x ∉ text.chars := by
  intro h
  have hplain := List.all_eq_true.mp text.isPlain x h
  rw [hx] at hplain
  cases hplain

/-- The name of a parameter: a letter or an underscore, then letters, digits and underscores. -/
structure ParameterName where
  first : Char
  others : List Char
  isFirst : (first.isAlpha || first == '_') = true
  isOthers : others.all Text.isWordChar = true

/-- A segment of a matcher. -/
inductive Segment where
  | static (text : StaticText)
  | parameter (name : ParameterName)

namespace Segment

/-- The segment as it stands in the matcher. -/
def written : Segment → List Char
  | static text => text.chars
  | parameter name => ':' :: name.first :: name.others

/-- What is left of the segment without parameters. -/
def kept : Segment → List Char
  | static text => text.chars
  | parameter _ => []

/-- The segment is a static text. -/
def isStatic : Segment → Bool
  | static _ => true
  | parameter _ => false

/-- The part may stand in a path in the place of the segment. -/
def Fills : Segment → List Char → Prop
  | static text, part => part = text.chars
  | parameter _, part => part ≠ [] ∧ '/' ∉ part

end Segment

/-- Parts with slashes between them. -/
def joined (parts : List (List Char)) : List Char := ['/'].intercalate parts

@[simp] lemma joined_nil : joined [] = [] := rfl

@[simp] lemma joined_singleton (part : List Char) : joined [part] = part := by simp [joined]

@[simp] lemma joined_cons_cons (part next : List Char) (parts : List (List Char)) :
    joined (part :: next :: parts) = part ++ '/' :: joined (next :: parts) := by
  simp [joined]

/-- The matcher made of the segments. -/
def matcher (segments : List Segment) : List Char := joined (segments.map Segment.written)

/-- The matcher without its parameters. -/
def withoutParameters (segments : List Segment) : List Char := joined (segments.map Segment.kept)

/-- The prefixes that a guard for the matchers tests. -/
def guardedPaths (matchers : List (List Char)) : List (List Char) :=
  if matchers.isEmpty then [['/']] else matchers.map prefixOf

/-- The test of a guard for the matchers succeeds on the path. -/
def isGuarded (matchers : List (List Char)) (path : List Char) : Bool :=
  (guardedPaths matchers).any fun start => Text.startsWith path start

/-- These prefixes are what the text of the guard lists. -/
theorem pathList_eq (matchers : List (List Char)) : pathList matchers =
    String.intercalate ", " ((guardedPaths matchers).map fun start => "'" ++ String.ofList start ++ "'") := rfl

section Parameter

variable {c d : Cursor} {x : Char}

/-- The characters that the name of a parameter may begin with. -/
def nameStart : CharSet := .union (.range 'A' 'Z') (.union (.range 'a' 'z') (.single '_'))

lemma contains_nameStart_iff : nameStart.contains x = true ↔ (x.isAlpha || x == '_') = true := by
  delta Char.isAlpha Char.isUpper Char.isLower
  simp only [nameStart, CharSet.contains, Pattern.single_contains_iff, Bool.or_eq_true, Bool.and_eq_true,
    decide_eq_true_eq, beq_iff_eq, Char.le_def, or_assoc]

lemma unmatched_matcherParameter_cons (hx : x ≠ ':') (before : Option Char) (s : List Char) :
    matcherParameter.Unmatched before (x :: s) := Pattern.unmatched_cat_text_cons (t := ":") rfl hx before s _

/-- A parameter in front of a slash or the end is matched as a whole. -/
lemma prefers_matcherParameter {name : ParameterName} (hreads : c.Reads (Segment.parameter name).written d)
    (hend : ∀ y ∈ d.rest.head?, y = '/') : Prefers (β := Match) matcherParameter.run c d [] := by
  obtain ⟨c₁, hcolon, hreads⟩ := Cursor.Reads.split (u := ":".toList) hreads
  obtain ⟨c₂, hfirst, hothers⟩ := Cursor.Reads.split (u := [name.first]) hreads
  have hstart : nameStart.contains name.first = true := contains_nameStart_iff.mpr name.isFirst
  have hmany : Prefers (β := Match) (Pattern.many (.set .word)).run c₂ d [] :=
    Pattern.prefers_unlimited_set hothers (List.all_eq_true.mp name.isOthers) (Nat.zero_le _)
      fun y hy => hend y hy ▸ by decide
  have hoptional : Prefers (β := Match) (Pattern.optional (.oneOf "*+?")).run d d [] :=
    Pattern.prefers_repeated_set (.refl d) (fun _ h => nomatch h) (Nat.zero_le _) (fun _ _ => Nat.zero_le _)
      (.inl fun y hy => hend y hy ▸ by decide)
  exact (Pattern.prefers_text hcolon).run_cat
    ((Pattern.prefers_set hfirst hstart).run_cat (hmany.run_cat (hoptional.run_cat Pattern.prefers_cat_nil)))

/-- A pass over a segment in front of a slash or the end leaves what is kept of it. -/
lemma exists_passes_segment {segment : Segment} {found : List Match} (h : Passes matcherParameter d found)
    (hreads : c.Reads segment.written d) (hend : ∀ y ∈ d.rest.head?, y = '/') :
    ∃ more, Passes matcherParameter c more ∧
      spliceFrom (fun _ => []) c more = segment.kept ++ spliceFrom (fun _ => []) d found := by
  cases segment with
  | static text =>
    have hplain : ∀ x ∈ text.chars, ∀ before s, matcherParameter.Unmatched before (x :: s) := by
      intro x hx
      refine unmatched_matcherParameter_cons ?_
      rintro rfl
      exact text.notMem (by decide) hx
    exact ⟨found, h.skipAll hplain hreads, h.spliceFrom_skip hreads _⟩
  | parameter name =>
    exact ⟨_, .found (prefers_matcherParameter hreads hend) h, Pattern.spliceFrom_found _ c d [] found⟩

lemma exists_passes_matcher (segments : List Segment) (hc : c.rest = matcher segments) :
    ∃ found, Passes matcherParameter c found ∧
      spliceFrom (fun _ => []) c found = withoutParameters segments := by
  induction segments generalizing c with
  | nil => exact ⟨[], .done hc, hc⟩
  | cons segment segments ih =>
    cases segments with
    | nil =>
      obtain ⟨d, hreads, hd⟩ := Cursor.exists_reads (w := segment.written) (y := []) (by simpa [matcher] using hc)
      have hend : ∀ y ∈ d.rest.head?, y = '/' := by simp [hd]
      obtain ⟨found, hpasses, hsplice⟩ := exists_passes_segment (.done hd) hreads hend
      refine ⟨found, hpasses, hsplice.trans ?_⟩
      simp [spliceFrom, hd, withoutParameters]
    | cons next segments =>
      obtain ⟨d, hreads, hd⟩ := Cursor.exists_reads (w := segment.written) (y := '/' :: matcher (next :: segments))
        (by simpa [matcher] using hc)
      obtain ⟨e, hslash, he⟩ := Cursor.exists_reads (w := ['/']) hd
      obtain ⟨found, hpasses, hsplice⟩ := ih he
      have hbehind : Passes matcherParameter d found := by
        refine hpasses.skipAll (fun x hx => unmatched_matcherParameter_cons ?_) hslash
        rw [List.mem_singleton.mp hx]
        decide
      have hend : ∀ y ∈ d.rest.head?, y = '/' := by simp [hd, eq_comm]
      obtain ⟨more, hmore, hspliceMore⟩ := exists_passes_segment hbehind hreads hend
      refine ⟨more, hmore, ?_⟩
      rw [hspliceMore, hpasses.spliceFrom_skip hslash, hsplice]
      simp [withoutParameters]

end Parameter

lemma replaceAll_matcherParameter (segments : List Segment) :
    matcherParameter.replaceAll (fun _ => []) (matcher segments) = withoutParameters segments := by
  obtain ⟨found, hpasses, hsplice⟩ := exists_passes_matcher (c := Cursor.start (matcher segments)) segments rfl
  rw [Pattern.replaceAll, hpasses.findAll_eq rfl, hsplice]

lemma parenthesis_notMem_withoutParameters (segments : List Segment) : '(' ∉ withoutParameters segments := by
  have hkept : ∀ segment : Segment, '(' ∉ segment.kept := by
    rintro (text | name) h
    · exact text.notMem (by decide) h
    · cases h
  induction segments with
  | nil => exact List.not_mem_nil
  | cons segment segments ih =>
    cases segments with
    | nil => simpa [withoutParameters] using hkept segment
    | cons next segments =>
      have hjoined : withoutParameters (segment :: next :: segments) =
          segment.kept ++ '/' :: withoutParameters (next :: segments) := joined_cons_cons _ _ _
      simp [hjoined, hkept segment, ih]

/-- The prefix of a matcher is the matcher without its parameters, or a slash if nothing is left. -/
lemma prefixOf_matcher (segments : List Segment) : prefixOf (matcher segments) =
    if withoutParameters segments = [] then ['/'] else withoutParameters segments := by
  have hwhole : (withoutParameters segments).takeWhile (· != '(') = withoutParameters segments := by
    refine List.takeWhile_eq_self_iff.mpr fun x hx => bne_iff_ne.mpr ?_
    rintro rfl
    exact parenthesis_notMem_withoutParameters segments hx
  simp only [prefixOf, replaceAll_matcherParameter, hwhole, List.isEmpty_iff]

section Paths

variable {segments : List Segment} {parts : List (List Char)}

/-- What is left of a matcher is the beginning of its paths as long as no parameter is in front of a slash. -/
lemma withoutParameters_prefix_iff (h : List.Forall₂ Segment.Fills segments parts) :
    withoutParameters segments <+: joined parts ↔ ∀ segment ∈ segments.dropLast, segment.isStatic = true := by
  induction h with
  | nil => simp [withoutParameters]
  | @cons segment part segments parts hfills h ih =>
    cases h with
    | nil =>
      refine iff_of_true ?_ (by simp)
      cases segment with
      | static text =>
        obtain rfl : part = text.chars := hfills
        exact List.prefix_rfl
      | parameter name => exact List.nil_prefix
    | @cons next nextPart segments parts hnext h =>
      rw [withoutParameters, List.map_cons, List.map_cons, joined_cons_cons, joined_cons_cons, List.dropLast_cons_cons,
        List.forall_mem_cons]
      cases segment with
      | static text =>
        obtain rfl : part = text.chars := hfills
        have hrest : '/' :: joined (Segment.kept next :: segments.map Segment.kept) <+:
            '/' :: joined (nextPart :: parts) ↔ ∀ segment ∈ (next :: segments).dropLast, segment.isStatic = true := by
          rw [List.cons_prefix_cons, and_iff_right rfl]
          exact ih
        exact (List.prefix_append_right_inj _).trans (hrest.trans (and_iff_right rfl).symm)
      | parameter name =>
        -- The slash behind the parameter stands where the path has a character of the value.
        obtain ⟨hne, hslash⟩ := hfills
        obtain ⟨y, ys, rfl⟩ := List.exists_cons_of_ne_nil hne
        refine iff_of_false (fun hcovers => ?_) (fun hstatic => Bool.false_ne_true hstatic.1)
        have hy : '/' = y := (List.cons_prefix_cons.mp hcovers).1
        exact hslash (hy ▸ List.mem_cons_self)

/-- Of a matcher of which nothing is left no path begins with a slash. -/
lemma not_startsWith_slash (h : List.Forall₂ Segment.Fills segments parts) (hnil : withoutParameters segments = []) :
    ¬ ['/'] <+: joined parts := by
  cases h with
  | nil => simp
  | @cons segment part segments parts hfills h =>
    cases h with
    | nil =>
      rw [withoutParameters, List.map_singleton, joined_singleton] at hnil
      rw [joined_singleton]
      cases segment with
      | static text =>
        obtain rfl : part = text.chars := hfills
        have hempty : text.chars = [] := hnil
        simp [hempty]
      | parameter name =>
        intro hcovers
        exact hfills.2 (hcovers.subset List.mem_cons_self)
    | cons =>
      rw [withoutParameters, List.map_cons, List.map_cons, joined_cons_cons] at hnil
      simp at hnil

lemma isGuarded_singleton_iff {start path : List Char} : isGuarded [start] path = true ↔ prefixOf start <+: path := by
  simp [isGuarded, guardedPaths, Text.startsWith_iff]

lemma isGuarded_of_mem {matchers : List (List Char)} {start path : List Char} (hstart : start ∈ matchers)
    (h : prefixOf start <+: path) : isGuarded matchers path = true := by
  have hlist : guardedPaths matchers = matchers.map prefixOf := by
    rw [guardedPaths, if_neg]
    rw [List.isEmpty_iff]
    rintro rfl
    cases hstart
  rw [isGuarded, hlist, List.any_map]
  exact List.any_eq_true.mpr ⟨start, hstart, Text.startsWith_iff.mpr h⟩

/-- A path of a matcher begins with the prefix of the matcher exactly when no segment but the last is a parameter
and something is left of the matcher; just then every guard for the matcher covers the path. -/
theorem path_covered_iff (h : List.Forall₂ Segment.Fills segments parts) :
    (prefixOf (matcher segments) <+: joined parts ↔
      (∀ segment ∈ segments.dropLast, segment.isStatic = true) ∧ withoutParameters segments ≠ []) ∧
    ((∀ matchers, matcher segments ∈ matchers → isGuarded matchers (joined parts) = true) ↔
      (∀ segment ∈ segments.dropLast, segment.isStatic = true) ∧ withoutParameters segments ≠ []) := by
  have hcovers : prefixOf (matcher segments) <+: joined parts ↔
      (∀ segment ∈ segments.dropLast, segment.isStatic = true) ∧ withoutParameters segments ≠ [] := by
    rw [prefixOf_matcher]
    by_cases hnil : withoutParameters segments = []
    · rw [if_pos hnil]
      exact iff_of_false (not_startsWith_slash h hnil) fun hleft => hleft.2 hnil
    · rw [if_neg hnil, withoutParameters_prefix_iff h]
      exact (and_iff_left hnil).symm
  refine ⟨hcovers, Iff.trans ⟨fun hall => ?_, fun hstart matchers hmem => isGuarded_of_mem hmem hstart⟩ hcovers⟩
  exact isGuarded_singleton_iff.mp (hall _ (List.mem_singleton.mpr rfl))

end Paths

/-- All pages below one of the dashboard. -/
def dashboardPages : List Segment :=
  [.static ⟨[], by decide⟩, .static ⟨"dashboard".toList, by decide⟩,
    .parameter ⟨'p', "ath".toList, by decide, by decide⟩]

theorem path_covered_iff_dashboardPages :
    prefixOf "/dashboard/:path".toList <+: "/dashboard/settings".toList ∧
      isGuarded ["/account".toList, "/dashboard/:path".toList] "/dashboard/settings".toList = true := by
  have hfills : List.Forall₂ Segment.Fills dashboardPages [[], "dashboard".toList, "settings".toList] :=
    .cons rfl (.cons rfl (.cons ⟨by decide, by decide⟩ .nil))
  have hmatcher : matcher dashboardPages = "/dashboard/:path".toList := by decide
  have hpath : joined [[], "dashboard".toList, "settings".toList] = "/dashboard/settings".toList := by decide
  have hcovered : (∀ segment ∈ dashboardPages.dropLast, segment.isStatic = true) ∧
      withoutParameters dashboardPages ≠ [] := by decide
  obtain ⟨hcovers, hguarded⟩ := path_covered_iff hfills
  rw [hmatcher, hpath] at hcovers hguarded
  exact ⟨hcovers.mpr hcovered, hguarded.mpr hcovered _ (by decide)⟩

/-- One page in every language. -/
def aboutPages : List Segment :=
  [.static ⟨[], by decide⟩, .parameter ⟨'l', "ang".toList, by decide, by decide⟩,
    .static ⟨"about".toList, by decide⟩]

/-- Without the parameter in the middle, two slashes meet, and no page is guarded. -/
theorem about_page_unguarded :
    matchersIn "export const config = \x7b matcher: '/:lang/about' \x7d;\n".toList = [matcher aboutPages] ∧
      List.Forall₂ Segment.Fills aboutPages [[], "en".toList, "about".toList] ∧
      prefixOf (matcher aboutPages) = "//about".toList ∧
      ¬ prefixOf (matcher aboutPages) <+: joined [[], "en".toList, "about".toList] ∧
      isGuarded [matcher aboutPages] (joined [[], "en".toList, "about".toList]) = false := by
  refine ⟨by decide, .cons rfl (.cons ⟨by decide, by decide⟩ (.cons rfl .nil)), ?_⟩
  decide

end SpaMigration.RouteGuard
