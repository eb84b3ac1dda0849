import SpaMigration.Proofs.PatternPreference
import SpaMigration.Proofs.PatternWords
import SpaMigration.Proofs.RouteFields
import SpaMigration.Route.Target

/-!
# Paths made of texts and bracket groups

A well-formed path is a row of pieces: texts without brackets, parameters `[x]`, catch-alls `[...x]` and optional
catch-alls `[[...x]]`, in any number and order. Each of the three patterns that read such a path takes it piece
by piece, so the path of the router is the row of the converted pieces, the parameters are the names in the
pieces, and what kind of route it is depends on which pieces there are.
-/
namespace SpaMigration

/-- No bracket is among the characters. -/
def IsBracketFree (chars : List Char) : Prop := '[' ∉ chars ∧ ']' ∉ chars

instance (chars : List Char) : Decidable (IsBracketFree chars) := inferInstanceAs (Decidable (_ ∧ _))

/-- A name that may stand in brackets. -/
structure BracketName where
  chars : List Char
  ne_nil : chars ≠ []
  isBracketFree : IsBracketFree chars

/-- A piece of a well-formed path. The name of a plain parameter does not start like that of a catch-all. -/
inductive PathPiece where
  | text (chars : List Char) (isBracketFree : IsBracketFree chars)
  | parameter (name : BracketName) (isPlain : ¬ "...".toList <+: name.chars)
  | catchAll (name : BracketName)
  | optionalCatchAll (name : BracketName)

namespace PathPiece

/-- The piece in bracket notation. -/
def written : PathPiece → List Char
  | text chars _ => chars
  | parameter name _ => "[".toList ++ (name.chars ++ "]".toList)
  | catchAll name => "[...".toList ++ (name.chars ++ "]".toList)
  | optionalCatchAll name => "[[...".toList ++ (name.chars ++ "]]".toList)

/-- The piece in the notation of the router. -/
def converted : PathPiece → List Char
  | text chars _ => chars
  | parameter name _ => ':' :: name.chars
  | catchAll _ | optionalCatchAll _ => ['*']

/-- The name in the brackets. -/
def name? : PathPiece → Option (List Char)
  | text _ _ => none
  | parameter name _ | catchAll name | optionalCatchAll name => some name.chars

/-- The piece is a catch-all in one pair of brackets. -/
def isCatchAll : PathPiece → Bool
  | catchAll _ => true
  | _ => false

/-- The piece is a catch-all in two pairs of brackets. -/
def isOptionalCatchAll : PathPiece → Bool
  | optionalCatchAll _ => true
  | _ => false

/-- The path made of the pieces. -/
def path (pieces : List PathPiece) : String := String.ofList (pieces.flatMap written)

end PathPiece

namespace Pattern

variable {β : Type} {c d : Cursor} {name s : List Char}

/-- A pattern that begins with rounds of a text matches nothing where another text stands. -/
lemma unmatched_cat_atLeastOne_text {t : String} (hs : ¬ t.toList <+: s) (before : Option Char) (ps : List Pattern) :
    (cat (atLeastOne (text t) :: ps)).Unmatched before s := by
  rintro w y groups rfl ⟨u, v, gu, gv, rfl, -, hu, -⟩
  obtain ⟨n, hn, hrounds⟩ := exists_rounds_of_matches_repeated hu
  obtain ⟨n, rfl⟩ := Nat.exists_eq_add_one.mpr hn
  obtain ⟨first, others, gfirst, gothers, rfl, -, hfirst, -⟩ := hrounds
  obtain ⟨rfl, -⟩ := matches_text_iff.mp hfirst
  exact hs ⟨others ++ (v ++ y), by simp only [List.append_assoc]⟩

/-- Characters of a set between two texts are matched as far as the second text, if that begins with none. -/
lemma prefers_enclosed {opening closing : String} {chars : CharSet}
    (hreads : c.Reads (opening.toList ++ (name ++ closing.toList)) d) (hname : ∀ x ∈ name, chars.contains x = true)
    (hclosing : ∃ x ∈ closing.toList.head?, chars.contains x = false) :
    Prefers (β := β) (cat [text opening, many (.set chars), text closing]).run c d [] := by
  obtain ⟨x, hx, hstop⟩ := hclosing
  obtain ⟨c₁, hopening, hreads⟩ := hreads.split
  obtain ⟨c₂, hname', hclosing⟩ := hreads.split
  have hhead : ∀ y ∈ c₂.rest.head?, chars.contains y = false := by
    obtain ⟨s, hs⟩ := List.head?_eq_some_iff.mp hx
    rw [hclosing.rest, hs]
    rintro y ⟨⟩
    exact hstop
  have hmany : Prefers (β := β) (many (.set chars)).run c₁ c₂ [] :=
    prefers_unlimited_set hname' hname (Nat.zero_le _) hhead
  exact (prefers_text hopening).run_cat (hmany.run_cat ((prefers_text hclosing).run_cat prefers_cat_nil))

end Pattern

namespace PathPiece

open Pattern (Prefers)

variable {β : Type} {c d : Cursor} {name s : List Char} {x : Char}

lemma ne_of_isBracketFree {chars : List Char} (h : IsBracketFree chars) (hx : x ∈ chars) : x ≠ '[' ∧ x ≠ ']' :=
  ⟨fun heq => h.1 (heq ▸ hx), fun heq => h.2 (heq ▸ hx)⟩

/-- A set without certain brackets holds the characters of a name. -/
lemma contains_noneOf {chars : String} (hchars : chars.toList ⊆ ['[', ']']) (name : BracketName) :
    ∀ x ∈ name.chars, (CharSet.compl (.ofList chars.toList)).contains x = true := by
  intro x hx
  obtain ⟨hopening, hclosing⟩ := ne_of_isBracketFree name.isBracketFree hx
  exact Pattern.contains_compl_ofList.mpr fun h => by simpa [hopening, hclosing] using hchars h

lemma not_contains_noneOf {chars : String} (hx : x ∈ chars.toList) :
    (CharSet.compl (.ofList chars.toList)).contains x = false := by
  rw [← Bool.not_eq_true, Pattern.contains_compl_ofList]
  exact not_not_intro hx

/-- A text that a character is not in stands in front of that character if at all. -/
lemma prefix_of_prefix_append_cons {m s t : List Char} (h : m <+: s ++ x :: t) (hx : x ∉ m) : m <+: s := by
  rcases List.prefix_or_prefix_of_prefix h (List.prefix_append s (x :: t)) with hm | ⟨u, rfl⟩
  · exact hm
  · rw [List.prefix_append_right_inj] at h
    cases u with
    | nil => rw [List.append_nil]
    | cons y u =>
      obtain ⟨rfl, -⟩ := List.cons_prefix_cons.mp h
      exact absurd (List.mem_append_right s List.mem_cons_self) hx

/-! ### Catch-alls -/

lemma unmatched_catchAll (hs : ¬ "[[...".toList <+: s) (hs' : ¬ "[...".toList <+: s) (before : Option Char) :
    TargetRoute.catchAll.Unmatched before s :=
  Pattern.unmatched_alt (Pattern.unmatched_cat_text hs before _) (Pattern.unmatched_cat_text hs' before _)

lemma unmatched_catchAll_cons (hx : x ≠ '[') (before : Option Char) (s : List Char) :
    TargetRoute.catchAll.Unmatched before (x :: s) :=
  unmatched_catchAll (fun h => hx (List.cons_prefix_cons.mp h).1.symm)
    (fun h => hx (List.cons_prefix_cons.mp h).1.symm) before

lemma not_opening_prefix_name (name : BracketName) (m t : List Char) : ¬ '[' :: m <+: name.chars ++ t := by
  obtain ⟨y, ys, hname⟩ := List.exists_cons_of_ne_nil name.ne_nil
  rw [hname, List.cons_append, List.cons_prefix_cons]
  rintro ⟨rfl, -⟩
  exact name.isBracketFree.1 (hname ▸ List.mem_cons_self)

lemma not_dots_prefix_name {name : BracketName} (h : ¬ "...".toList <+: name.chars) (t : List Char) :
    ¬ "...".toList <+: name.chars ++ ']' :: t :=
  fun hstart => h (prefix_of_prefix_append_cons hstart (by decide))

/-- Each catch-all is matched as a whole, and nothing else is. -/
lemma takesPieces_catchAll : TargetRoute.catchAll.TakesPieces written fun
    | catchAll _ | optionalCatchAll _ => some []
    | _ => none := by
  intro piece rest c d hreads _
  cases piece with
  | text chars isBracketFree =>
    intro found h
    exact h.skipAll (fun x hx => unmatched_catchAll_cons (ne_of_isBracketFree isBracketFree hx).1) hreads
  | parameter name isPlain =>
    intro found h
    have hrest : c.rest = '[' :: (name.chars ++ ']' :: d.rest) :=
      hreads.rest.trans (congrArg (List.cons '[') (List.append_assoc name.chars [']'] d.rest))
    obtain ⟨c', hopening, hbehind⟩ := hreads.split
    have hunmatched : TargetRoute.catchAll.Unmatched c.before c.rest := by
      rw [hrest]
      exact unmatched_catchAll (fun h => not_opening_prefix_name name _ _ (List.cons_prefix_cons.mp h).2)
        (fun h => not_dots_prefix_name isPlain _ (List.cons_prefix_cons.mp h).2) c.before
    refine .skip hopening hunmatched (h.skipAll (fun x hx => unmatched_catchAll_cons ?_) hbehind)
    rcases List.mem_append.mp hx with hx | hx
    · exact (ne_of_isBracketFree name.isBracketFree hx).1
    · rw [List.mem_singleton.mp hx]
      decide
  | catchAll name =>
    have hfirst : ¬ "[[...".toList <+: c.rest := by
      rw [hreads.rest]
      intro h
      have hdot : '[' = '.' := (List.cons_prefix_cons.mp (List.cons_prefix_cons.mp h).2).1
      exact absurd hdot (by decide)
    exact .run_alt_right (Pattern.refuses_of_unmatched (Pattern.unmatched_cat_text hfirst _ _))
      (Pattern.prefers_enclosed hreads (contains_noneOf (by decide) name) ⟨']', rfl, not_contains_noneOf (by decide)⟩)
  | optionalCatchAll name =>
    exact .run_alt_left
      (Pattern.prefers_enclosed hreads (contains_noneOf (by decide) name) ⟨']', rfl, not_contains_noneOf (by decide)⟩)

/-- The piece once the catch-alls are replaced. -/
def wildcarded : PathPiece → List Char
  | catchAll _ | optionalCatchAll _ => ['*']
  | piece => piece.written

lemma replaceAll_catchAll (pieces : List PathPiece) :
    TargetRoute.catchAll.replaceAll (fun _ => ['*']) (pieces.flatMap written) = pieces.flatMap wildcarded := by
  rw [takesPieces_catchAll.replaceAll_eq rfl (fun _ => ['*']) pieces]
  refine List.flatMap_congr fun piece _ => ?_
  cases piece <;> rfl

/-! ### Parameters -/

lemma unmatched_parameter_cons (hx : x ≠ '[') (before : Option Char) (s : List Char) :
    TargetRoute.parameter.Unmatched before (x :: s) := Pattern.unmatched_cat_text_cons (t := "[") rfl hx before s _

/-- Each parameter is matched as a whole with its name as the group, and nothing else is. -/
lemma takesPieces_parameter : TargetRoute.parameter.TakesPieces wildcarded fun
    | parameter name _ => some [(1, name.chars)]
    | _ => none := by
  intro piece rest c d hreads _
  cases piece with
  | text chars isBracketFree =>
    intro found h
    exact h.skipAll (fun x hx => unmatched_parameter_cons (ne_of_isBracketFree isBracketFree hx).1) hreads
  | parameter name isPlain =>
    obtain ⟨c₁, hopening, hreads⟩ := hreads.split
    obtain ⟨c₂, hname, hclosing⟩ := hreads.split
    have hstop : ∀ y ∈ c₂.rest.head?, (CharSet.compl (.ofList "]".toList)).contains y = false := by
      rw [hclosing.rest]
      rintro y ⟨⟩
      exact not_contains_noneOf (by decide)
    have hmany : Prefers (β := Match) (Pattern.atLeastOne (.noneOf "]")).run c₁ c₂ [] :=
      Pattern.prefers_unlimited_set hname (contains_noneOf (by decide) name) (List.length_pos_iff.mpr name.ne_nil) hstop
    exact (Pattern.prefers_text hopening).run_cat
      ((hmany.run_group hname).run_cat ((Pattern.prefers_text hclosing).run_cat Pattern.prefers_cat_nil))
  | catchAll name | optionalCatchAll name =>
    intro found h
    refine h.skipAll (fun x hx => unmatched_parameter_cons ?_) hreads
    rw [List.mem_singleton.mp hx]
    decide

theorem pathOf_path (pieces : List PathPiece) :
    TargetRoute.pathOf (path pieces) = String.ofList (pieces.flatMap converted) := by
  have hparameters := takesPieces_parameter.replaceAll_eq rfl
    (fun groups => ':' :: ((groups.find? (·.1 == 1)).map (·.2)).getD []) pieces
  rw [TargetRoute.pathOf, path, String.toList_ofList, replaceAll_catchAll]
  refine congrArg String.ofList (hparameters.trans (List.flatMap_congr fun piece _ => ?_))
  cases piece <;> rfl

/-! ### Bracket groups -/

lemma unmatched_bracketGroup_cons (hx : x ≠ '[') (before : Option Char) (s : List Char) :
    Route.bracketGroup.Unmatched before (x :: s) :=
  Pattern.unmatched_cat_atLeastOne_text (t := "[") (fun h => hx (List.cons_prefix_cons.mp h).1.symm) before _

lemma not_prefix_singleton {y : Char} (h : s.head? ≠ some y) : ¬ [y] <+: s := by
  rintro ⟨t, rfl⟩
  exact h rfl

/-- A name between brackets, with dots in front of it or none, is matched up to its last bracket. -/
lemma prefers_bracketGroup (depth dots : Nat) {name : BracketName}
    (hreads : c.Reads ((List.replicate depth "[".toList).flatten ++ ((List.replicate dots "...".toList).flatten ++
      (name.chars ++ (List.replicate depth "]".toList).flatten))) d)
    (hdepth : 1 ≤ depth) (hdots : dots = 1 ∨ dots = 0 ∧ ¬ "...".toList <+: name.chars)
    (hend : d.rest.head? ≠ some ']') :
    Prefers (β := β) Route.bracketGroup.run c d [(1, name.chars)] := by
  obtain ⟨c₁, hopening, hreads⟩ := hreads.split
  obtain ⟨c₂, hmiddle, hreads⟩ := hreads.split
  obtain ⟨c₃, hname, hclosing⟩ := hreads.split
  obtain ⟨y, hc₃⟩ : ∃ y, c₃.rest = ']' :: y := by
    obtain ⟨more, rfl⟩ := Nat.exists_eq_add_one.mpr hdepth
    exact ⟨_, hclosing.rest⟩
  have hc₂ : c₂.rest = name.chars ++ ']' :: y := by rw [hname.rest, hc₃]
  have hopen : ¬ "[".toList <+: c₁.rest := by
    rw [hmiddle.rest, hc₂]
    rcases hdots with rfl | ⟨rfl, -⟩
    · exact not_prefix_singleton (y := '[') (s := '.' :: _) (by simp)
    · exact not_opening_prefix_name name [] _
  have hdotsStop : some 1 = some dots ∨ ¬ "...".toList <+: c₂.rest := by
    rw [hc₂]
    rcases hdots with rfl | ⟨-, hplain⟩
    · exact .inl rfl
    · exact .inr (not_dots_prefix_name hplain y)
  have hdotsMost : ∀ limit ∈ some 1, dots ≤ limit := by
    rintro limit ⟨⟩
    omega
  have hnameStop : ∀ x ∈ c₃.rest.head?, (CharSet.compl (.ofList "[]".toList)).contains x = false := by
    rw [hc₃]
    rintro x ⟨⟩
    exact not_contains_noneOf (by decide)
  have hbrackets : Prefers (β := β) (Pattern.atLeastOne (.text "[")).run c c₁ [] :=
    Pattern.prefers_repeated_text (by decide) hopening hdepth (fun _ h => nomatch h) (.inr hopen)
  have hmiddle : Prefers (β := β) (Pattern.optional (.text "...")).run c₁ c₂ [] :=
    Pattern.prefers_repeated_text (by decide) hmiddle (Nat.zero_le _) hdotsMost hdotsStop
  have hmany : Prefers (β := β) (Pattern.many (.noneOf "[]")).run c₂ c₃ [] :=
    Pattern.prefers_unlimited_set hname (contains_noneOf (by decide) name) (Nat.zero_le _) hnameStop
  have hends : Prefers (β := β) (Pattern.atLeastOne (.text "]")).run c₃ d [] :=
    Pattern.prefers_repeated_text (by decide) hclosing hdepth (fun _ h => nomatch h)
      (.inr (not_prefix_singleton hend))
  exact hbrackets.run_cat (hmiddle.run_cat ((hmany.run_group hname).run_cat (hends.run_cat Pattern.prefers_cat_nil)))

/-- No piece begins with a closing bracket. -/
lemma head?_flatMap_written (pieces : List PathPiece) : (pieces.flatMap written).head? ≠ some ']' := by
  induction pieces with
  | nil => simp
  | cons piece pieces ih =>
    rw [List.flatMap_cons]
    cases piece with
    | text chars isBracketFree =>
      cases chars with
      | nil => exact ih
      | cons y chars =>
        rintro ⟨⟩
        exact isBracketFree.2 List.mem_cons_self
    | _ =>
      intro h
      have hbracket : '[' = ']' := Option.some.inj h
      exact absurd hbracket (by decide)

/-- Each bracketed piece is matched as a whole with its name as the group, and nothing else is. -/
lemma takesPieces_bracketGroup : Route.bracketGroup.TakesPieces written fun piece =>
    piece.name?.map fun name => [(1, name)] := by
  intro piece rest c d hreads hrest
  have hend : d.rest.head? ≠ some ']' := hrest ▸ head?_flatMap_written rest
  cases piece with
  | text chars isBracketFree =>
    intro found h
    exact h.skipAll (fun x hx => unmatched_bracketGroup_cons (ne_of_isBracketFree isBracketFree hx).1) hreads
  | parameter name isPlain =>
    exact prefers_bracketGroup 1 0 hreads le_rfl (.inr ⟨rfl, isPlain⟩) hend
  | catchAll name => exact prefers_bracketGroup 1 1 hreads le_rfl (.inl rfl) hend
  | optionalCatchAll name => exact prefers_bracketGroup 2 1 hreads (by decide) (.inl rfl) hend

lemma name?_ne_nil {piece : PathPiece} (h : piece.name? = some name) : name ≠ [] := by
  cases piece with
  | text => cases h
  | parameter name | catchAll name | optionalCatchAll name =>
    cases h
    exact name.ne_nil

theorem paramsOf_path (pieces : List PathPiece) :
    Route.paramsOf (path pieces) = (pieces.filterMap name?).map String.ofList := by
  have hgroups := congrArg (List.map fun groups => ((groups.find? (·.1 == 1)).map (·.2)).getD [])
    (takesPieces_bracketGroup.groups_findAll rfl pieces)
  have hnames : ((Route.bracketGroup.findAll (pieces.flatMap written)).map (·.group 1)) = pieces.filterMap name? := by
    rw [List.map_map, List.map_filterMap] at hgroups
    refine hgroups.trans (List.filterMap_congr fun piece _ => ?_)
    cases piece <;> rfl
  rw [Route.paramsOf, path, String.toList_ofList, hnames, ← List.filterMap_eq_map]
  refine List.filterMap_congr fun name hname => if_neg ?_
  obtain ⟨piece, -, hpiece⟩ := List.mem_filterMap.mp hname
  rw [List.isEmpty_iff]
  exact name?_ne_nil hpiece

/-! ### Kinds of pieces -/

variable {m t : List Char}

/-- What begins with an opening bracket occurs behind characters that are none. -/
lemma infix_append_iff (hs : '[' ∉ s) : '[' :: m <:+: s ++ t ↔ '[' :: m <:+: t := by
  induction s with
  | nil => rfl
  | cons x s ih =>
    have hx : ¬ ('[' = x ∧ m <+: s ++ t) := fun h => hs (h.1 ▸ List.mem_cons_self)
    rw [List.cons_append, List.infix_cons_iff, List.cons_prefix_cons, ih fun h => hs (List.mem_cons_of_mem x h)]
    exact or_iff_right hx

/-- What begins with an opening bracket occurs at that of a piece or behind the piece. -/
lemma infix_bracketed_iff {dots closing : List Char} (name : BracketName) (hdots : '[' ∉ dots)
    (hclosing : '[' ∉ closing) : '[' :: m <:+: '[' :: (dots ++ (name.chars ++ closing)) ++ t ↔
      m <+: dots ++ (name.chars ++ (closing ++ t)) ∨ '[' :: m <:+: t := by
  have hbody : '[' ∉ dots ++ (name.chars ++ closing) := by simp [hdots, hclosing, name.isBracketFree.1]
  rw [List.cons_append, List.infix_cons_iff, infix_append_iff hbody, List.cons_prefix_cons, and_iff_right rfl,
    List.append_assoc, List.append_assoc]

lemma infix_optionalCatchAll_append_iff {piece : PathPiece} :
    "[[...".toList <:+: piece.written ++ t ↔ piece.isOptionalCatchAll = true ∨ "[[...".toList <:+: t := by
  cases piece with
  | text chars isBracketFree =>
    exact (infix_append_iff isBracketFree.1).trans (or_iff_right Bool.false_ne_true).symm
  | parameter name isPlain =>
    refine (infix_bracketed_iff name List.not_mem_nil (by decide)).trans (or_congr_left ?_)
    exact iff_of_false (not_opening_prefix_name name _ _) Bool.false_ne_true
  | catchAll name =>
    refine (infix_bracketed_iff name (by decide) (by decide)).trans (or_congr_left ?_)
    refine iff_of_false (fun h => ?_) Bool.false_ne_true
    have hdot : '[' = '.' := (List.cons_prefix_cons.mp h).1
    exact absurd hdot (by decide)
  | optionalCatchAll name => exact iff_of_true ⟨[], (name.chars ++ "]]".toList) ++ t, rfl⟩ (.inl rfl)

lemma infix_catchAll_append_iff {piece : PathPiece} : "[...".toList <:+: piece.written ++ t ↔
    (piece.isCatchAll = true ∨ piece.isOptionalCatchAll = true) ∨ "[...".toList <:+: t := by
  cases piece with
  | text chars isBracketFree =>
    exact (infix_append_iff isBracketFree.1).trans (or_iff_right (by simp [isCatchAll, isOptionalCatchAll])).symm
  | parameter name isPlain =>
    refine (infix_bracketed_iff name List.not_mem_nil (by decide)).trans (or_congr_left ?_)
    exact iff_of_false (not_dots_prefix_name isPlain t) (by simp [isCatchAll, isOptionalCatchAll])
  | catchAll name => exact iff_of_true ⟨[], (name.chars ++ "]".toList) ++ t, rfl⟩ (.inl (.inl rfl))
  | optionalCatchAll name => exact iff_of_true ⟨['['], (name.chars ++ "]]".toList) ++ t, rfl⟩ (.inl (.inr rfl))

lemma infix_path_iff (pieces : List PathPiece) :
    ("[[...".toList <:+: pieces.flatMap written ↔ ∃ piece ∈ pieces, piece.isOptionalCatchAll = true) ∧
      ("[...".toList <:+: pieces.flatMap written ↔
        ∃ piece ∈ pieces, piece.isCatchAll = true ∨ piece.isOptionalCatchAll = true) := by
  induction pieces with
  | nil => simp
  | cons piece pieces ih =>
    rw [List.flatMap_cons, infix_optionalCatchAll_append_iff, infix_catchAll_append_iff, ih.1, ih.2]
    simp only [List.exists_mem_cons_iff, and_self]

lemma mem_written_iff {piece : PathPiece} :
    ('[' ∈ piece.written ↔ piece.name?.isSome = true) ∧ (']' ∈ piece.written ↔ piece.name?.isSome = true) := by
  cases piece with
  | text chars isBracketFree =>
    exact ⟨iff_of_false isBracketFree.1 Bool.false_ne_true, iff_of_false isBracketFree.2 Bool.false_ne_true⟩
  | _ =>
    refine ⟨iff_of_true List.mem_cons_self rfl, iff_of_true ?_ rfl⟩
    exact List.mem_append_right _ (List.mem_append_right _ List.mem_cons_self)

lemma mem_path_iff (pieces : List PathPiece) :
    ('[' ∈ pieces.flatMap written ↔ ∃ piece ∈ pieces, piece.name?.isSome = true) ∧
      (']' ∈ pieces.flatMap written ↔ ∃ piece ∈ pieces, piece.name?.isSome = true) := by
  simp only [List.mem_flatMap, mem_written_iff.1, mem_written_iff.2, and_self]

/-- Well-formed paths are converted piece by piece, their parameters are the names in the pieces, and the kind of
a route under such a path is that of its pieces. -/
theorem path_converted_by_pieces (pieces : List PathPiece) :
    TargetRoute.pathOf (path pieces) = String.ofList (pieces.flatMap converted) ∧
      Route.paramsOf (path pieces) = (pieces.filterMap name?).map String.ofList ∧
      ∀ files, ∀ route ∈ Route.table files, route.path = path pieces →
        (route.isDynamic = true ↔ ∃ piece ∈ pieces, piece.name?.isSome = true) ∧
        (route.isOptionalCatchAll = true ↔ ∃ piece ∈ pieces, piece.isOptionalCatchAll = true) ∧
        (route.isCatchAll = true ↔ (∃ piece ∈ pieces, piece.isCatchAll = true) ∧
          ∀ piece ∈ pieces, piece.isOptionalCatchAll = false) := by
  refine ⟨pathOf_path pieces, paramsOf_path pieces, fun files route hroute hpath => ?_⟩
  obtain ⟨root, rest, hfields⟩ := Route.isReadOff_of_mem_table hroute
  have htext : route.path.toList = pieces.flatMap written := by rw [hpath, path, String.toList_ofList]
  have hoptional : route.isOptionalCatchAll = true ↔ ∃ piece ∈ pieces, piece.isOptionalCatchAll = true := by
    rw [hfields.isOptionalCatchAll, htext, Text.occursIn_iff, (infix_path_iff pieces).1]
  refine ⟨?_, hoptional, ?_⟩
  · rw [hfields.isDynamic, htext, Bool.and_eq_true, List.contains_iff_mem, List.contains_iff_mem,
      (mem_path_iff pieces).1, (mem_path_iff pieces).2, and_self]
  · rw [hfields.isCatchAll, htext, Bool.and_eq_true, Text.occursIn_iff, (infix_path_iff pieces).2,
      Bool.not_eq_true', ← Bool.not_eq_true, hoptional]
    constructor
    · rintro ⟨hnone, piece, hpiece, hkind⟩
      exact ⟨⟨piece, hpiece, hkind.resolve_right fun h => hnone ⟨piece, hpiece, h⟩⟩,
        fun other hother => Bool.eq_false_iff.mpr fun h => hnone ⟨other, hother, h⟩⟩
    · rintro ⟨⟨piece, hpiece, hkind⟩, hnone⟩
      exact ⟨fun ⟨other, hother, h⟩ => Bool.eq_false_iff.mp (hnone other hother) h, piece, hpiece, .inl hkind⟩

/-- Two parameters side by side in one segment, and a catch-all behind a letter in the next. -/
def crowdedPieces : List PathPiece :=
  [.text "/shop/".toList (by decide), .parameter ⟨"lang".toList, by decide, by decide⟩ (by decide),
    .parameter ⟨"area".toList, by decide, by decide⟩ (by decide), .text "/v".toList (by decide),
    .catchAll ⟨"rest".toList, by decide, by decide⟩]

theorem path_converted_by_pieces_crowdedPieces :
    TargetRoute.pathOf "/shop/[lang][area]/v[...rest]" = "/shop/:lang:area/v*" ∧
      Route.paramsOf "/shop/[lang][area]/v[...rest]" = ["lang", "area", "rest"] ∧
      ∃ route ∈ Route.table ["pages/shop/[lang][area]/v[...rest].tsx"], route.isDynamic = true ∧
        route.isCatchAll = true ∧ ¬ route.isOptionalCatchAll = true := by
  have hpath : path crowdedPieces = "/shop/[lang][area]/v[...rest]" := by decide
  have hroute : ∃ route ∈ Route.table ["pages/shop/[lang][area]/v[...rest].tsx"],
      route.path = "/shop/[lang][area]/v[...rest]" := by decide
  obtain ⟨hconverted, hparams, hkinds⟩ := path_converted_by_pieces crowdedPieces
  rw [hpath] at hconverted hparams hkinds
  obtain ⟨route, hmem, hroutePath⟩ := hroute
  obtain ⟨hdynamic, hoptional, hcatchAll⟩ := hkinds _ route hmem hroutePath
  exact ⟨hconverted.trans (by decide), hparams.trans (by decide +kernel), route, hmem,
    hdynamic.mpr (by decide), hcatchAll.mpr (by decide), mt hoptional.mp (by decide)⟩

end PathPiece

end SpaMigration
