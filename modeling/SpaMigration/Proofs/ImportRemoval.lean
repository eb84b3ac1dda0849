import SpaMigration.Proofs.CommentLines
import SpaMigration.Proofs.LineScan
import SpaMigration.Proofs.ReplacementFrame

/-!
# Removing a default import

Removing a default import touches nothing but its declaration. What the declaration imports besides the default is
kept in its place. Otherwise the declaration goes, with the whole line when it has that for itself. So the lines above
and below the declaration stay as they are, and none is joined with another.
-/
namespace SpaMigration

open Syntax Text

/-! ## Lines around a span -/

/-- What is left of a line, up to its line feed or the end of the text, and what is below it. -/
inductive IsLineRest : List Char → List Char → Prop
  | feed {piece below : List Char} (hpiece : '\n' ∉ piece) : IsLineRest (piece ++ ['\n']) below
  | last {piece : List Char} (hpiece : '\n' ∉ piece) : IsLineRest piece []

/-- The lines above and below a span, and what shares its first and its last line with it. -/
structure Surroundings (text : List Char) (span : Span) where
  above : List Char
  before : List Char
  inner : List Char
  behind : List Char
  below : List Char
  text_eq : text = above ++ before ++ inner ++ behind ++ below
  lo_eq : span.lo = byteSize (above ++ before)
  hi_eq : span.hi = byteSize (above ++ before ++ inner)
  above_ended : above = [] ∨ above.getLast? = some '\n'
  before_inside : '\n' ∉ before
  behind_ended : IsLineRest behind below

lemma exists_isLineRest (text : List Char) : ∃ line below, text = line ++ below ∧ IsLineRest line below := by
  induction text with
  | nil => exact ⟨[], [], rfl, .last List.not_mem_nil⟩
  | cons c text ih =>
    obtain ⟨line, below, rfl, hrest⟩ := ih
    by_cases hc : c = '\n'
    · subst hc
      exact ⟨['\n'], line ++ below, rfl, @IsLineRest.feed [] _ List.not_mem_nil⟩
    · refine ⟨c :: line, below, rfl, ?_⟩
      cases hrest with
      | feed hpiece => exact @IsLineRest.feed (c :: _) _ (List.not_mem_cons_of_ne_of_not_mem (Ne.symm hc) hpiece)
      | last hpiece => exact .last (List.not_mem_cons_of_ne_of_not_mem (Ne.symm hc) hpiece)

lemma IsLineRest.below_eq_nil {line below : List Char} (h : IsLineRest line below) (hline : '\n' ∉ line) :
    below = [] := by
  cases h with
  | feed => exact absurd (List.mem_append_right _ List.mem_cons_self) hline
  | last => rfl

/-- A line ends once. -/
lemma IsLineRest.eq_nil {line more below : List Char} (h : IsLineRest line (more ++ below))
    (h' : IsLineRest (line ++ more) below) : more = [] := by
  generalize hrest : more ++ below = rest at h
  generalize hlonger : line ++ more = longer at h'
  cases h with
  | last => exact (List.append_eq_nil_iff.mp hrest).1
  | @feed piece =>
    have hfeed : '\n' ∈ piece ++ ['\n'] := List.mem_append_right _ List.mem_cons_self
    cases h' with
    | last hpiece => exact absurd (hlonger ▸ List.mem_append_left _ hfeed) hpiece
    | @feed other _ hother =>
      cases more using List.reverseRecOn with
      | nil => rfl
      | append_singleton more c =>
        rw [← List.append_assoc] at hlonger
        obtain ⟨rfl, -⟩ := List.append_inj' hlonger rfl
        exact absurd (List.mem_append_left _ hfeed) hother

lemma IsLineRest.unique {line below line' below' : List Char} (h : IsLineRest line below)
    (h' : IsLineRest line' below') (heq : line ++ below = line' ++ below') : line = line' := by
  obtain ⟨more, rfl, rfl⟩ | ⟨more, rfl, rfl⟩ := List.append_eq_append_iff.mp heq
  · rw [h.eq_nil h', List.append_nil]
  · rw [h'.eq_nil h, List.append_nil]

section

variable {blanks ending below : List Char}

lemma feed_not_mem (hblanks : ∀ c ∈ blanks, isLineBlank c) : '\n' ∉ blanks :=
  fun hfeed => absurd (hblanks _ hfeed) (by decide)

/-- Blanks with a line end, or with the end of the text, are what is left of a line. -/
lemma isLineRest_of_blanks (hblanks : ∀ c ∈ blanks, isLineBlank c)
    (hending : ending = ['\n'] ∨ ending = ['\r', '\n'] ∨ ending = [] ∧ below = []) :
    IsLineRest (blanks ++ ending) below := by
  rcases hending with rfl | rfl | ⟨rfl, rfl⟩
  · exact .feed (feed_not_mem hblanks)
  · rw [← List.singleton_append, ← List.append_assoc]
    exact .feed (by simpa using feed_not_mem hblanks)
  · rw [List.append_nil]
    exact .last (feed_not_mem hblanks)

/-- Stepping ahead over blanks ends at the line end. -/
lemma IsLineRest.scanned (h : IsLineRest (blanks ++ ending) below) (hblanks : ∀ c ∈ blanks, isLineBlank c)
    (hending : ending = [] ∨ ending = ['\n'] ∨ ending = ['\r', '\n']) :
    (ending ++ below).takeWhile isLineBlank = [] ∧ (ending ++ below).dropWhile isLineBlank = ending ++ below ∧
      lineEnd? (ending ++ below) = some (byteSize ending) := by
  rcases hending with rfl | rfl | rfl
  · rw [List.append_nil] at h
    rw [h.below_eq_nil (feed_not_mem hblanks)]
    exact ⟨rfl, rfl, rfl⟩
  all_goals exact ⟨rfl, rfl, rfl⟩

/-- What is in front of a place on its line is blank if blanks reach back to the start of a line. -/
lemma blank_of_append_eq {above above' left before : List Char} (heq : above' ++ before = above ++ left)
    (habove : above = [] ∨ above.getLast? = some '\n') (hbefore : '\n' ∉ before)
    (hleft : ∀ c ∈ left, isLineBlank c) : ∀ c ∈ before, isLineBlank c := by
  obtain ⟨more, rfl, rfl⟩ | ⟨more, -, rfl⟩ := List.append_eq_append_iff.mp heq
  · -- The line that the blanks are on does not start inside of the line of the place.
    have hnil : more = [] := by
      cases more using List.reverseRecOn with
      | nil => rfl
      | append_singleton more c =>
        rw [← List.append_assoc, List.getLast?_concat, List.append_eq_nil_iff] at habove
        obtain rfl : c = '\n' := by simpa using habove
        simp at hbefore
    rw [hnil]
    exact hleft
  · exact fun c hc => hleft c (List.mem_append_right _ hc)

end

namespace Surroundings

variable {text : List Char} {span : Span}

/-- A span of whole characters has surroundings. -/
lemma nonempty_of_fits (h : span.fits text) : Nonempty (Surroundings text span) := by
  obtain ⟨inner, hinner⟩ := Option.isSome_iff_exists.mp h
  obtain ⟨front, after, rfl, hlo, hhi⟩ := slice?_eq_some_iff.mp hinner
  obtain ⟨behind, below, rfl, hrest⟩ := exists_isLineRest after
  have hfront := reverse_dropWhile_append_reverse_takeWhile (· != '\n') front
  refine ⟨⟨(front.reverse.dropWhile (· != '\n')).reverse, (front.reverse.takeWhile (· != '\n')).reverse,
    inner, behind, below, ?_, ?_, ?_, ?_, ?_, hrest⟩⟩
  · rw [hfront, List.append_assoc (front ++ inner)]
  · rw [hfront, hlo]
  · rw [hfront, hhi]
  · rw [List.getLast?_reverse, List.reverse_eq_nil_iff]
    cases habove : front.reverse.dropWhile (· != '\n') with
    | nil => exact .inl rfl
    | cons c above =>
      have hc := List.head?_dropWhile_not (· != '\n') front.reverse
      rw [habove] at hc
      exact .inr (by simpa using hc)
  · intro hmem
    simpa using List.mem_takeWhile_imp (List.mem_reverse.mp hmem)

/-- The span has its lines for itself: only blanks are in front of it, and only blanks and one line end behind it. -/
structure IsAlone (place : Surroundings text span) : Prop where
  before_blank : ∀ c ∈ place.before, isLineBlank c
  behind_blank : ∃ blanks ending, place.behind = blanks ++ ending ∧ (∀ c ∈ blanks, isLineBlank c) ∧
    (ending = [] ∨ ending = ['\n'] ∨ ending = ['\r', '\n'])

variable (place : Surroundings text span)

lemma text_eq_append : text = (place.above ++ place.before) ++ place.inner ++ (place.behind ++ place.below) := by
  conv_lhs => rw [place.text_eq]
  simp only [List.append_assoc]

lemma cut_lo : splitAtByte? span.lo text =
    some (place.above ++ place.before, place.inner ++ (place.behind ++ place.below)) :=
  splitAtByte?_eq_some_iff.mpr ⟨place.text_eq_append.trans (List.append_assoc ..), place.lo_eq.symm⟩

lemma cut_hi : splitAtByte? span.hi text =
    some (place.above ++ place.before ++ place.inner, place.behind ++ place.below) :=
  splitAtByte?_eq_some_iff.mpr ⟨place.text_eq_append, place.hi_eq.symm⟩

include place in
lemma fits : span.fits text :=
  Option.isSome_iff_exists.mpr ⟨place.inner,
    slice?_eq_some_iff.mpr ⟨_, _, place.text_eq_append, place.lo_eq.symm, place.hi_eq.symm⟩⟩

/-- Stepping back over blanks ends at the start of the line. -/
lemma scanned_above : place.above.reverse.takeWhile isLineBlank = [] ∧
    place.above.reverse.dropWhile isLineBlank = place.above.reverse ∧
    place.above.reverse.head?.all (· == '\n') = true := by
  rw [List.head?_reverse]
  rcases place.above_ended with hnil | hlast
  · rw [hnil]
    exact ⟨rfl, rfl, rfl⟩
  · obtain ⟨above, habove⟩ := List.getLast?_eq_some_iff.mp hlast
    rw [habove, List.reverse_append, List.getLast?_append]
    exact ⟨rfl, rfl, rfl⟩

variable {place}

/-- A span that has its lines for itself is widened to them. -/
lemma IsAlone.wholeLine_eq (h : place.IsAlone) :
    wholeLine text span =
      ⟨byteSize place.above, byteSize (place.above ++ place.before ++ place.inner ++ place.behind)⟩ := by
  obtain ⟨blanks, ending, hbehind, hblanks, hending⟩ := h.behind_blank
  have hfront : (place.above ++ place.before).reverse = place.before.reverse ++ place.above.reverse :=
    List.reverse_append
  have hbefore : ∀ c ∈ place.before.reverse, isLineBlank c := fun c hc => h.before_blank c (List.mem_reverse.mp hc)
  obtain ⟨htakeAbove, hdropAbove, hstarts⟩ := place.scanned_above
  obtain ⟨htakeBelow, hdropBelow, hends⟩ := (hbehind ▸ place.behind_ended).scanned hblanks hending
  simp only [wholeLine, place.cut_lo, place.cut_hi]
  rw [hfront, List.takeWhile_append_of_pos hbefore, List.dropWhile_append_of_pos hbefore, htakeAbove, hdropAbove,
    hstarts, hbehind, List.append_assoc blanks, List.takeWhile_append_of_pos hblanks,
    List.dropWhile_append_of_pos hblanks, htakeBelow, hdropBelow, hends]
  have hsizeBefore := byteSize_of_isLineBlank h.before_blank
  have hsizeBlanks := byteSize_of_isLineBlank hblanks
  simp only [List.append_nil, List.length_reverse, place.lo_eq, place.hi_eq, byteSize_append, Span.mk.injEq]
  omega

/-- A span with a whole line has its lines for itself. -/
lemma isAlone_of_wholeLine {wide : Span} (h : WholeLine text span wide) : place.IsAlone := by
  obtain ⟨above, left, inner, right, ending, below, hleft, hright, habove, hending⟩ := h
  have hfront : place.above ++ place.before = above ++ left := by
    have hcut := place.cut_lo.symm.trans
      (splitAtByte?_eq_some_iff.mpr ⟨(by simp only [List.append_assoc] :
        _ = (above ++ left) ++ (inner ++ right ++ ending ++ below)), rfl⟩)
    exact congrArg Prod.fst (Option.some.inj hcut)
  have hback : place.behind ++ place.below = right ++ ending ++ below := by
    have hcut := place.cut_hi.symm.trans
      (splitAtByte?_eq_some_iff.mpr ⟨(by simp only [List.append_assoc] :
        _ = (above ++ left ++ inner) ++ (right ++ ending ++ below)), rfl⟩)
    exact congrArg Prod.snd (Option.some.inj hcut)
  refine ⟨blank_of_append_eq hfront habove place.before_inside hleft, right, ending,
    place.behind_ended.unique (isLineRest_of_blanks hright hending) hback, hright, ?_⟩
  rcases hending with rfl | rfl | ⟨rfl, -⟩
  exacts [.inr (.inl rfl), .inr (.inr rfl), .inl rfl]

/-- A span that shares its lines is not widened. -/
lemma wholeLine_of_not_isAlone (h : ¬ place.IsAlone) : wholeLine text span = span :=
  (wholeLine_eq_or place.fits).resolve_right fun hline => h (isAlone_of_wholeLine hline)

/-- What the removal of a declaration leaves of a text. The declaration makes room for a statement, or goes with all of
its lines if it has them for itself, or leaves what shares its lines. -/
inductive Leaves (place : Surroundings text span) : Option String → List Char → Prop
  | statement (kept : String) :
      Leaves place (some kept) (place.above ++ place.before ++ kept.toList ++ place.behind ++ place.below)
  | nothing (halone : place.IsAlone) : Leaves place none (place.above ++ place.below)
  | lineRests (hshared : ¬ place.IsAlone) :
      Leaves place none (place.above ++ place.before ++ place.behind ++ place.below)

end Surroundings

/-! ## Lines of a text -/

lemma IsLineRest.lines_append {line below : List Char} (h : IsLineRest line below) (front : List Char) :
    lines (front ++ line ++ below) = lines (front ++ line) ++ lines below := by
  cases h with
  | feed => exact lines_append_of_ended (.inr (by rw [← List.append_assoc, List.getLast?_concat])) _
  | last => rw [List.append_nil, lines, List.append_nil]

lemma IsLineRest.length_lines_le {line below front : List Char} (h : IsLineRest line below) (hfront : '\n' ∉ front) :
    (lines (front ++ line)).length ≤ 1 := by
  cases h with
  | @feed piece _ hpiece =>
    rw [← List.append_assoc, Text.lines_append (by simp [hfront, hpiece])]
    rfl
  | last hpiece => exact Text.length_lines_le (by simp [hfront, hpiece])

namespace Surroundings

variable {text : List Char} {span : Span} (place : Surroundings text span)

/-- The lines above and below stay lines of their own, whatever stands between what shares the lines of the span. -/
lemma lines_eq (middle : List Char) :
    lines (place.above ++ place.before ++ middle ++ place.behind ++ place.below) =
      lines place.above ++ lines (place.before ++ middle ++ place.behind) ++ lines place.below := by
  have hbelow := place.behind_ended.lines_append (place.before ++ middle)
  have habove := lines_append_of_ended place.above_ended (place.before ++ middle ++ place.behind ++ place.below)
  simp only [List.append_assoc] at hbelow habove ⊢
  rw [habove, hbelow]

/-- The lines of a text: those above and below the span, with the given ones between. -/
def HasLines (lines : List (List Char)) (code : List Char) : Prop :=
  Text.lines code = Text.lines place.above ++ lines ++ Text.lines place.below

variable {place}

/-- The lines above and below stay. A declaration without a statement in its place leaves no more than one line of
what shared its lines. -/
lemma Leaves.lines {kept : Option String} {code : List Char} (h : place.Leaves kept code) :
    ∃ left, place.HasLines left code ∧ (kept = none → left.length ≤ 1) := by
  cases h with
  | statement kept => exact ⟨_, place.lines_eq kept.toList, fun h => nomatch h⟩
  | nothing halone =>
    refine ⟨[], ?_, fun _ => Nat.zero_le 1⟩
    rw [HasLines, List.append_nil, lines_append_of_ended place.above_ended]
  | lineRests hshared =>
    have hlines := place.lines_eq []
    rw [List.append_nil, List.append_nil] at hlines
    exact ⟨_, hlines, fun _ => place.behind_ended.length_lines_le place.before_inside⟩

end Surroundings

/-! ## Default imports of a source -/

namespace Source

variable {source : Source} {declaration : Node} {modulePath name : String}

/-- The item imports the default of the module and binds it to the name. -/
def ImportsDefault (source : Source) (modulePath name : String) (item : Node) : Prop :=
  source.importedModule? item = some modulePath ∧ defaultName? item = some name

/-- The declaration is the first item that imports the default of the module. -/
def IsFirstDefault (source : Source) (modulePath name : String) (declaration : Node) : Prop :=
  ∃ others rest, source.items = others ++ declaration :: rest ∧
    source.ImportsDefault modulePath name declaration ∧
    ∀ item ∈ others, ∀ other, ¬ source.ImportsDefault modulePath other item

/-- The first declaration is found. -/
lemma defaultDeclaration?_eq_some_iff :
    source.defaultDeclaration? modulePath = some (declaration, name) ↔
      source.IsFirstDefault modulePath name declaration := by
  have hfound : ∀ item found, (if source.importedModule? item == some modulePath then
      (defaultName? item).map (item, ·) else none) = some found ↔
      found.1 = item ∧ source.ImportsDefault modulePath found.2 item := by
    rintro item ⟨declaration, name⟩
    simp only [ImportsDefault, Option.ite_none_right_eq_some, beq_iff_eq, Option.map_eq_some_iff, Prod.mk.injEq]
    constructor
    · rintro ⟨hmodule, bound, hname, rfl, rfl⟩
      exact ⟨rfl, hmodule, hname⟩
    · rintro ⟨rfl, hmodule, hname⟩
      exact ⟨hmodule, name, hname, rfl, rfl⟩
  rw [defaultDeclaration?, List.findSome?_eq_some_iff, IsFirstDefault]
  constructor
  · rintro ⟨others, item, rest, hitems, hitem, hnone⟩
    obtain ⟨rfl, himports⟩ := (hfound _ _).mp hitem
    refine ⟨others, rest, hitems, himports, fun item hmem other hother => ?_⟩
    exact absurd (hnone item hmem)
      (Option.ne_none_iff_exists'.mpr ⟨(item, other), (hfound _ _).mpr ⟨rfl, hother⟩⟩)
  · rintro ⟨others, rest, hitems, himports, hnone⟩
    refine ⟨others, declaration, rest, hitems, (hfound _ _).mpr ⟨rfl, himports⟩, fun item hmem => ?_⟩
    refine Option.eq_none_iff_forall_not_mem.mpr fun found hitem => ?_
    exact hnone item hmem _ ((hfound _ _).mp hitem).2

/-- A module with a default import has a first one. -/
lemma exists_isFirstDefault (h : ∃ item ∈ source.items, ∃ name, source.ImportsDefault modulePath name item) :
    ∃ declaration name, source.IsFirstDefault modulePath name declaration := by
  obtain ⟨item, hmem, name, hmodule, hname⟩ := h
  have hsome : (source.defaultDeclaration? modulePath).isSome := by
    rw [defaultDeclaration?, List.findSome?_isSome_iff]
    exact ⟨item, hmem, by simp [hmodule, hname]⟩
  obtain ⟨⟨declaration, name⟩, hfound⟩ := Option.isSome_iff_exists.mp hsome
  exact ⟨declaration, name, defaultDeclaration?_eq_some_iff.mp hfound⟩

/-- The part of a declaration imports the namespace of the module. -/
def isNamespacePart (part : Node) : Bool :=
  match part.kind with
  | .importNamespace _ => true
  | _ => false

/-- The part of a declaration imports a name of the module. -/
def isNamedPart (part : Node) : Bool :=
  match part.kind with
  | .importNamed _ => true
  | _ => false

/-- The statement that imports a clause from the module, only its types if the declaration imports only types. -/
def importStatement (declaration : Node) (modulePath : String) (clause : List Char) : String :=
  (if declaration.kind == .importDeclaration true then "import type " else "import ") ++ String.ofList clause ++
    (" from '" ++ modulePath ++ "';")

lemma importStatement_braced (clause : List Char) :
    importStatement declaration modulePath ("\x7b ".toList ++ clause ++ " \x7d".toList) =
      (if declaration.kind == .importDeclaration true then "import type " else "import ") ++ "\x7b " ++
        String.ofList clause ++ " \x7d" ++ (" from '" ++ modulePath ++ "';") := by
  simp only [importStatement, String.ofList_append, String.ofList_toList, String.append_assoc]

/-- What is kept of a declaration: nothing if it imports only the default, and otherwise the statement that imports
the namespace, or the other names in their order, each as it is written. -/
inductive Keeps (source : Source) (declaration : Node) (modulePath : String) : Option String → Prop
  | nothing (hother : ∀ part ∈ declaration.parts, ¬ isNamespacePart part ∧ ¬ isNamedPart part) :
      Keeps source declaration modulePath none
  | namespace {part : Node} {clause : List Char}
      (hpart : (declaration.parts.filter isNamespacePart).getLast? = some part)
      (hclause : source.textAt? part.span = some clause) :
      Keeps source declaration modulePath (some (importStatement declaration modulePath clause))
  | names {clauses : List (List Char)} (hnone : ∀ part ∈ declaration.parts, ¬ isNamespacePart part)
      (hclauses : List.Forall₂ (fun part clause => source.textAt? part.span = some clause)
        (declaration.parts.filter isNamedPart) clauses) (hsome : clauses ≠ []) :
      Keeps source declaration modulePath (some (importStatement declaration modulePath
        ("\x7b ".toList ++ joinWith [',', ' '] clauses ++ " \x7d".toList)))

lemma exists_getLast? {parts : List Node} {clauses : List (List Char)} {clause : List Char}
    (h : List.Forall₂ (fun part clause => source.textAt? part.span = some clause) parts clauses)
    (hlast : clauses.getLast? = some clause) :
    ∃ part, parts.getLast? = some part ∧ source.textAt? part.span = some clause := by
  have hreverse := List.forall₂_reverse_iff.mpr h
  rw [← List.head?_reverse] at hlast
  cases hclauses : clauses.reverse with
  | nil => simp [hclauses] at hlast
  | cons first rest =>
    rw [hclauses] at hreverse hlast
    obtain rfl : first = clause := by simpa using hlast
    obtain ⟨part, others, hpart, -, hparts⟩ := List.forall₂_cons_right_iff.mp hreverse
    exact ⟨part, by rw [← List.head?_reverse, hparts]; rfl, hpart⟩

lemma keeps_of_keptImport? {kept : Option String} (h : source.keptImport? declaration modulePath = some kept) :
    source.Keeps declaration modulePath kept := by
  obtain ⟨namespaces, hnamespaces, h⟩ := Option.bind_eq_some_iff.mp h
  obtain ⟨named, hnamed, h⟩ := Option.bind_eq_some_iff.mp h
  replace hnamespaces : List.Forall₂ (fun part clause => source.textAt? part.span = some clause)
    (declaration.parts.filter isNamespacePart) namespaces := mapM_eq_some_iff.mp hnamespaces
  replace hnamed : List.Forall₂ (fun part clause => source.textAt? part.span = some clause)
    (declaration.parts.filter isNamedPart) named := mapM_eq_some_iff.mp hnamed
  have hfree : ∀ {p : Node → Bool}, declaration.parts.filter p = [] → ∀ part ∈ declaration.parts, ¬ p part :=
    fun hnil => List.filter_eq_nil_iff.mp hnil
  dsimp only at h
  split at h
  · rename_i found hlast
    obtain ⟨part, hpart, hclause⟩ := exists_getLast? hnamespaces hlast
    cases h
    exact .namespace hpart hclause
  · rename_i hlast
    cases h
    rw [List.getLast?_eq_none_iff.mp hlast] at hnamespaces
    exact .nothing fun part hpart => ⟨hfree (List.forall₂_nil_right_iff.mp hnamespaces) part hpart,
      hfree (List.forall₂_nil_right_iff.mp hnamed) part hpart⟩
  · rename_i hlast hsome
    cases h
    rw [List.getLast?_eq_none_iff.mp hlast] at hnamespaces
    rw [← importStatement_braced]
    exact .names (hfree (List.forall₂_nil_right_iff.mp hnamespaces)) hnamed hsome

end Source

/-! ## Removal -/

/-- One edit of whole characters replaces what it covers. -/
lemma Edit.applyAll?_singleton {edit : Edit} {text front cut after : List Char} (htext : text = front ++ cut ++ after)
    (hlo : edit.lo = byteSize front) (hhi : edit.hi = byteSize (front ++ cut)) :
    Edit.applyAll? text [edit] = some (front ++ edit.text ++ after) := by
  have hfront : slice? text 0 edit.lo = some front :=
    slice?_eq_some_iff.mpr ⟨[], cut ++ after, by simp [htext], rfl, by simp [hlo]⟩
  have hafter : splitAtByte? edit.hi text = some (front ++ cut, after) :=
    splitAtByte?_eq_some_iff.mpr ⟨htext, hhi.symm⟩
  have hinside : (decide (edit.lo < 0) || decide (byteSize text < edit.hi)) = false := by
    simp [hhi, htext]
  simp only [Edit.applyAll?, Edit.sort, Edit.insert, Edit.applySorted?, hinside, hfront, hafter]
  rfl

lemma DefaultImport.exists_finish? (imported : DefaultImport) {text code : List Char}
    (h : Edit.applyAll? text [imported.removal] = some code) (imports warnings : List String) :
    ∃ result, imported.finish? text [] true imports warnings = some result ∧ result.code = code := by
  simp only [DefaultImport.finish?, if_true, List.nil_append, h]
  exact ⟨_, rfl, rfl⟩

section

variable {source : Source} {declaration : Node} (place : Surroundings source.text declaration.span)

/-- The edit that removes a declaration. -/
def Source.removalOf (source : Source) (declaration : Node) : Option String → Edit
  | some statement => ⟨declaration.span.lo, declaration.span.hi, statement.toList⟩
  | none => ⟨(wholeLine source.text declaration.span).lo, (wholeLine source.text declaration.span).hi, []⟩

/-- The edit that removes a declaration can be applied. -/
lemma exists_applyAll?_removalOf (kept : Option String) :
    ∃ code, Edit.applyAll? source.text [source.removalOf declaration kept] = some code ∧ place.Leaves kept code := by
  have htext := place.text_eq_append
  cases kept with
  | some statement =>
    have hleaves : place.Leaves (some statement) _ := .statement statement
    rw [List.append_assoc _ place.behind] at hleaves
    exact ⟨_, Edit.applyAll?_singleton htext place.lo_eq place.hi_eq, hleaves⟩
  | none =>
    by_cases halone : place.IsAlone
    · have hline : source.text =
          place.above ++ (place.before ++ place.inner ++ place.behind) ++ place.below := by
        conv_lhs => rw [place.text_eq]
        simp only [List.append_assoc]
      have hremoval : source.removalOf declaration none = ⟨byteSize place.above,
          byteSize (place.above ++ (place.before ++ place.inner ++ place.behind)), []⟩ := by
        simp only [Source.removalOf, halone.wholeLine_eq, List.append_assoc]
      have hleaves := Surroundings.Leaves.nothing halone
      rw [← List.append_nil place.above] at hleaves
      exact ⟨_, hremoval ▸ Edit.applyAll?_singleton hline rfl rfl, hleaves⟩
    · have hremoval : source.removalOf declaration none = ⟨declaration.span.lo, declaration.span.hi, []⟩ := by
        simp only [Source.removalOf, Surroundings.wholeLine_of_not_isAlone halone]
      have hleaves := Surroundings.Leaves.lineRests halone
      rw [List.append_assoc _ place.behind, ← List.append_nil (place.above ++ place.before)] at hleaves
      exact ⟨_, hremoval ▸ Edit.applyAll?_singleton htext place.lo_eq place.hi_eq, hleaves⟩

/-- Finishing without other edits leaves what the removal of the import leaves. -/
lemma exists_finish?_leaves (hsound : source.IsSound) (hnode : declaration ∈ source.nodes) (modulePath name : String)
    (imports warnings : List String) :
    ∃ imported result, source.importOf? modulePath declaration name = some imported ∧
      source.Keeps declaration modulePath imported.kept ∧
      imported.finish? source.text [] true imports warnings = some result ∧
      place.Leaves imported.kept result.code := by
  obtain ⟨kept, hkept⟩ := Source.keptImport?_isSome hsound hnode modulePath
  obtain ⟨code, hcode, hleaves⟩ := exists_applyAll?_removalOf place kept
  have himported : source.importOf? modulePath declaration name =
      some ⟨modulePath, name, kept, source.removalOf declaration kept⟩ := by
    simp only [Source.importOf?, hkept]
    cases kept <;> rfl
  obtain ⟨result, hresult, rfl⟩ :=
    DefaultImport.exists_finish? ⟨modulePath, name, kept, source.removalOf declaration kept⟩ hcode imports warnings
  exact ⟨_, result, himported, Source.keeps_of_keptImport? hkept, hresult, hleaves⟩

end

/-- For every text the scan for the line of a span reads only bytes of the text, wherever the span is, and finds
`wholeLine`. For every program without a byte-order mark, and every module of which it imports the default, the first
declaration that does so can be removed, and nothing else changes: it is replaced by a statement for what else it
imports; or it goes, and all of its lines with it exactly when only blanks and a line end share them. All lines above
and below the declaration stay as they are. -/
theorem default_import_removed (text : List Char) :
    (∀ span : Span, span.lo ≤ byteSize text → span.hi ≤ byteSize text →
      scanLine? (bytes text) span = some (wholeLine text span)) ∧
    ∀ {source : Source} {modulePath : String}, Source.parse? text = some source → text.head? ≠ some '\uFEFF' →
      (∃ item ∈ source.items, ∃ name, source.ImportsDefault modulePath name item) →
      ∀ imports warnings, ∃ declaration name imported result, ∃ place : Surroundings text declaration.span,
        source.defaultDeclaration? modulePath = some (declaration, name) ∧
        source.IsFirstDefault modulePath name declaration ∧
        source.importOf? modulePath declaration name = some imported ∧
        source.Keeps declaration modulePath imported.kept ∧
        imported.finish? text [] true imports warnings = some result ∧
        place.Leaves imported.kept result.code ∧
        place.HasLines (Text.lines (place.before ++ place.inner ++ place.behind)) text ∧
        ∃ left, place.HasLines left result.code ∧ (imported.kept = none → left.length ≤ 1) := by
  refine ⟨fun span => scanLine?_eq, fun {source modulePath} hparse hmark himports imports warnings => ?_⟩
  obtain ⟨declaration, name, hfirst⟩ := Source.exists_isFirstDefault himports
  have hfound := Source.defaultDeclaration?_eq_some_iff.mpr hfirst
  have hsound := Source.isSound_of_parse? hparse hmark
  have hnode := mem_nodes_of_defaultDeclaration? hfound
  obtain rfl := Source.text_of_parse? hparse
  obtain ⟨place⟩ := Surroundings.nonempty_of_fits (hsound declaration hnode)
  obtain ⟨imported, result, himported, hkeeps, hresult, hleaves⟩ :=
    exists_finish?_leaves place hsound hnode modulePath name imports warnings
  have hlines := place.lines_eq place.inner
  rw [← place.text_eq] at hlines
  exact ⟨declaration, name, imported, result, place, hfound, hfirst, himported, hkeeps, hresult, hleaves, hlines,
    hleaves.lines⟩

/-- A program with two default imports. The first one is indented and has its line for itself, and the other one
imports more and shares its line. -/
def importingText : List Char :=
  "let é;\r\n\timport Pic from \"next/image\"; \r\nimport Head, \x7b h as g \x7d from 'next/head'; go();".toList

/-- The name that is bound to the default of a module, what is kept of the import, and the text after its removal. -/
def removed? (text : List Char) (modulePath : String) : Option (String × Option String × String) := do
  let source ← Source.parse? text
  let (declaration, name) ← source.defaultDeclaration? modulePath
  let imported ← source.importOf? modulePath declaration name
  let result ← imported.finish? text [] true [] []
  return (name, imported.kept, String.ofList result.code)

lemma exists_of_removed? {text : List Char} {modulePath name code : String} {kept : Option String}
    (h : removed? text modulePath = some (name, kept, code)) :
    ∃ source, Source.parse? text = some source ∧
      (∃ item ∈ source.items, ∃ name, source.ImportsDefault modulePath name item) ∧
      ∀ declaration bound imported result, source.defaultDeclaration? modulePath = some (declaration, bound) →
        source.importOf? modulePath declaration bound = some imported →
        imported.finish? text [] true [] [] = some result →
        bound = name ∧ imported.kept = kept ∧ result.code = code.toList := by
  obtain ⟨source, hparse, h⟩ := Option.bind_eq_some_iff.mp h
  obtain ⟨⟨declaration, bound⟩, hfound, h⟩ := Option.bind_eq_some_iff.mp h
  obtain ⟨imported, himported, h⟩ := Option.bind_eq_some_iff.mp h
  obtain ⟨result, hresult, h⟩ := Option.bind_eq_some_iff.mp h
  cases h
  obtain ⟨others, rest, hitems, himports, -⟩ := Source.defaultDeclaration?_eq_some_iff.mp hfound
  refine ⟨source, hparse, ⟨declaration, ?_, _, himports⟩, ?_⟩
  · rw [hitems]
    exact List.mem_append_right _ List.mem_cons_self
  · intro declaration' bound' imported' result' hfound' himported' hresult'
    cases hfound.symm.trans hfound'
    cases himported.symm.trans himported'
    cases hresult.symm.trans hresult'
    exact ⟨rfl, rfl, String.toList_ofList.symm⟩

theorem default_import_removed_importingText :
    importingText.head? ≠ some '\uFEFF' ∧ scanLine? (bytes importingText) ⟨10, 39⟩ = some ⟨9, 42⟩ ∧
    (∃ source declaration imported result, ∃ place : Surroundings importingText declaration.span,
      Source.parse? importingText = some source ∧
      (∃ item ∈ source.items, ∃ name, source.ImportsDefault "next/image" name item) ∧
      source.defaultDeclaration? "next/image" = some (declaration, "Pic") ∧
      source.importOf? "next/image" declaration "Pic" = some imported ∧
      imported.finish? importingText [] true [] [] = some result ∧ place.Leaves none result.code ∧
      result.code = "let é;\r\nimport Head, \x7b h as g \x7d from 'next/head'; go();".toList) ∧
    ∃ source declaration imported result, ∃ place : Surroundings importingText declaration.span,
      Source.parse? importingText = some source ∧
      (∃ item ∈ source.items, ∃ name, source.ImportsDefault "next/head" name item) ∧
      source.defaultDeclaration? "next/head" = some (declaration, "Head") ∧
      source.importOf? "next/head" declaration "Head" = some imported ∧
      imported.finish? importingText [] true [] [] = some result ∧
      place.Leaves (some "import \x7b h as g \x7d from 'next/head';") result.code := by
  obtain ⟨hmark, hsize, hline⟩ : importingText.head? ≠ some '\uFEFF' ∧ 39 ≤ byteSize importingText ∧
      wholeLine importingText ⟨10, 39⟩ = ⟨9, 42⟩ := by
    unfold importingText
    rw [String.toList_ofList]
    decide +kernel
  have himage : removed? importingText "next/image" = some ("Pic", none,
      "let é;\r\nimport Head, \x7b h as g \x7d from 'next/head'; go();") := by
    unfold importingText
    rw [String.toList_ofList]
    decide +kernel
  have hhead : removed? importingText "next/head" = some ("Head", some "import \x7b h as g \x7d from 'next/head';",
      "let é;\r\n\timport Pic from \"next/image\"; \r\nimport \x7b h as g \x7d from 'next/head'; go();") := by
    unfold importingText
    rw [String.toList_ofList]
    decide +kernel
  have hscan := (default_import_removed importingText).1 ⟨10, 39⟩ (Nat.le_trans (by decide) hsize) hsize
  obtain ⟨source, hparse, himports, hcode⟩ := exists_of_removed? himage
  obtain ⟨source', hparse', himports', hcode'⟩ := exists_of_removed? hhead
  obtain ⟨declaration, name, imported, result, place, hfound, -, himported, -, hresult, hleaves, -⟩ :=
    (default_import_removed importingText).2 hparse hmark himports [] []
  obtain ⟨declaration', name', imported', result', place', hfound', -, himported', -, hresult', hleaves', -⟩ :=
    (default_import_removed importingText).2 hparse' hmark himports' [] []
  obtain ⟨rfl, hkept, htext⟩ := hcode _ _ _ _ hfound himported hresult
  obtain ⟨rfl, hkept', -⟩ := hcode' _ _ _ _ hfound' himported' hresult'
  exact ⟨hmark, hscan.trans (congrArg some hline),
    ⟨source, declaration, imported, result, place, hparse, himports, hfound, himported, hresult,
      hkept ▸ hleaves, htext⟩,
    source', declaration', imported', result', place', hparse', himports', hfound', himported', hresult',
    hkept' ▸ hleaves'⟩

end SpaMigration
