import Mathlib.Data.List.Flatten
import SpaMigration.Proofs.BatchOrder
import SpaMigration.Proofs.ItemsAbreast

/-!
# Programs without their lines of comments

Lines that look like comments are left out of a text that rules were applied to. Where they can go, what is left is a
program exactly when the text is one, with the same tree: each stretch of text that a node covers has lost the lines
of comments below its first line, and nothing else. A template of more than one line can lose lines in this way.
-/
namespace SpaMigration

open Text (IsCommentLine isCommentLine withoutComments withoutCommentsBelow slice?)

namespace Text

/-- One of the lines below the first one looks like a comment. -/
def HasCommentBelow (text : List Char) : Prop := ∃ line ∈ (lines text).tail, IsCommentLine line

instance (text : List Char) : Decidable (HasCommentBelow text) :=
  inferInstanceAs (Decidable (∃ line ∈ (lines text).tail, IsCommentLine line))

/-- Lines stay as they are together when none of them is one of a comment, and then only. -/
lemma flatten_filter_eq_iff {rows : List (List Char)} :
    (rows.filter fun row => !isCommentLine row).flatten = rows.flatten ↔ ∀ row ∈ rows, ¬ IsCommentLine row := by
  constructor
  · intro h row hrow hcomment
    obtain ⟨above, below, rfl⟩ := List.append_of_mem hrow
    obtain ⟨front, rfl, -⟩ := hcomment.exists_eq_append
    have hshorter (rows : List (List Char)) :
        (rows.filter fun row => !isCommentLine row).flatten.length ≤ rows.flatten.length :=
      (List.Sublist.flatten List.filter_sublist).length_le
    have habove := hshorter above
    have hbelow := hshorter below
    have hlength := congrArg List.length h
    rw [List.filter_append, List.filter_cons_of_neg (by simpa using isCommentLine_iff.mpr hcomment)] at hlength
    simp only [List.flatten_append, List.flatten_cons, List.length_append, List.length_singleton] at hlength
    omega
  · intro h
    have hall : ∀ row ∈ rows, (!isCommentLine row) = true := fun row hrow => by
      rw [Bool.not_eq_true', ← Bool.not_eq_true, isCommentLine_iff]
      exact h row hrow
    rw [List.filter_eq_self.mpr hall]

/-- A text keeps all of its lines below the first one when none of them looks like a comment, and then only. -/
lemma withoutCommentsBelow_eq_self_iff {text : List Char} :
    withoutCommentsBelow text = text ↔ ¬ HasCommentBelow text := by
  conv_lhs => rhs; rw [← flatten_lines text]
  rw [withoutCommentsBelow, HasCommentBelow]
  cases lines text with
  | nil => simp
  | cons line others =>
    rw [List.flatten_cons, List.append_cancel_left_eq, flatten_filter_eq_iff, List.tail_cons]
    simp only [not_exists, not_and]

end Text

namespace Syntax

/-! ## Lines of comments as pieces -/

/-- The text in pieces: the characters of its lines, and lines of comments as a whole. -/
def commentPieces (text : List Char) : List Piece :=
  (Text.lines text).flatMap fun line => if isCommentLine line then [.line line] else line.map .char

lemma whole_commentPieces (text : List Char) : whole (commentPieces text) = text := by
  have hlines : ∀ lines : List (List Char),
      whole (lines.flatMap fun line => if isCommentLine line then [.line line] else line.map .char) = lines.flatten := by
    intro lines
    induction lines with
    | nil => rfl
    | cons line lines ih =>
      rw [List.flatMap_cons, whole_append, ih, List.flatten_cons]
      split_ifs
      · rw [whole, whole, List.append_nil]
      · rw [whole_map_char]
  exact (hlines _).trans (Text.flatten_lines text)

/-- Lines of comments go as a whole, and all of them go: no character that stays begins one. -/
def TakesComments : (atStart : Bool) → List Piece → Prop
  | _, [] => True
  | atStart, .char c :: pieces =>
    (atStart = true → ∀ line rest, whole (.char c :: pieces) = line ++ rest → ¬ IsCommentLine line) ∧
      TakesComments (c == '\n') pieces
  | atStart, .line chars :: pieces => atStart = true ∧ IsCommentLine chars ∧ TakesComments true pieces

variable {atStart : Bool} {pieces others : List Piece} {text : List Char}

lemma TakesComments.of_append (h : TakesComments atStart (pieces ++ others)) : TakesComments atStart pieces := by
  induction pieces generalizing atStart with
  | nil => trivial
  | cons piece pieces ih =>
    cases piece with
    | char c =>
      refine ⟨fun hstart line rest hline => h.1 hstart line (rest ++ whole others) ?_, ih h.2⟩
      rw [← List.append_assoc, ← hline, ← whole_append]
      rfl
    | line chars => exact ⟨h.1, h.2.1, ih h.2.2⟩

lemma TakesComments.exists_of_append (h : TakesComments atStart (pieces ++ others)) :
    ∃ atStart, TakesComments atStart others := by
  induction pieces generalizing atStart with
  | nil => exact ⟨atStart, h⟩
  | cons piece pieces ih =>
    cases piece with
    | char c => exact ih h.2
    | line chars => exact ih h.2.2

/-- What stays of the pieces is the text without lines of comments, from where a line starts, and from elsewhere the
text without those below. -/
lemma TakesComments.kept_eq (h : TakesComments atStart pieces) :
    (atStart = true → kept pieces = withoutComments (whole pieces)) ∧
      (startsKept pieces → kept pieces = withoutCommentsBelow (whole pieces)) := by
  induction pieces generalizing atStart with
  | nil => exact ⟨fun _ => rfl, fun _ => rfl⟩
  | cons piece pieces ih =>
    cases piece with
    | char c =>
      have hbelow : kept (.char c :: pieces) = withoutCommentsBelow (whole (.char c :: pieces)) := by
        rw [kept, whole]
        by_cases hc : c = '\n'
        · subst hc
          rw [Text.withoutCommentsBelow_newline, (ih h.2).1 (by decide)]
        · have hnext : startsKept pieces := by
            cases pieces with
            | nil => trivial
            | cons piece pieces =>
              cases piece with
              | char d => trivial
              | line chars => exact hc (by simpa using h.2.1)
          rw [Text.withoutCommentsBelow_cons hc, (ih h.2).2 hnext]
      exact ⟨fun hstart => hbelow.trans (Text.withoutComments_eq_below (h.1 hstart)).symm, fun _ => hbelow⟩
    | line chars =>
      refine ⟨fun _ => ?_, fun hstart => hstart.elim⟩
      rw [kept, whole, Text.withoutComments_append h.2.1, (ih h.2.2).1 rfl]

/-- Characters stay in front of other pieces, if no line of a comment begins with them. -/
lemma TakesComments.chars {front : List Char} (hfront : '\n' ∉ front)
    (h : atStart = true → ∀ line rest, front ++ whole pieces = line ++ rest → ¬ IsCommentLine line)
    (hpieces : ∀ atEnd, (atEnd = true → front = [] ∧ atStart = true) → TakesComments atEnd pieces) :
    TakesComments atStart (front.map .char ++ pieces) := by
  induction front generalizing atStart with
  | nil => exact hpieces atStart fun hstart => ⟨rfl, hstart⟩
  | cons c front ih =>
    obtain ⟨hc, hfront⟩ := List.ne_and_not_mem_of_not_mem_cons hfront
    have hinside : (c == '\n') = false := by simpa using hc.symm
    refine ⟨fun hstart line rest hline => h hstart line rest ?_, ?_⟩
    · have hwhole : whole ((c :: front).map .char ++ pieces) = line ++ rest := hline
      rw [← hwhole, whole_append, whole_map_char]
    · rw [hinside]
      exact ih hfront (fun hstart => absurd hstart Bool.false_ne_true) fun atEnd hend =>
        hpieces atEnd fun htrue => absurd (hend htrue).2 Bool.false_ne_true

/-- Where no line of a comment comes first, the line that comes first is none. -/
lemma not_isCommentLine_of_append {line rest first behind : List Char} (hline : '\n' ∉ line)
    (h : ¬ IsCommentLine (line ++ ['\n'])) (heq : line ++ '\n' :: rest = first ++ behind) : ¬ IsCommentLine first := by
  intro hfirst
  obtain ⟨front, rfl, hfront⟩ := hfirst.exists_eq_append
  rw [List.append_assoc, List.singleton_append] at heq
  have hlines := Text.lines_append hline rest
  rw [heq, Text.lines_append hfront] at hlines
  rw [(List.cons.inj hlines).1] at hfirst
  exact h hfirst

lemma takesComments_commentPieces (text : List Char) : TakesComments true (commentPieces text) := by
  by_cases hmem : '\n' ∈ text
  · obtain ⟨line, rest, rfl, hline⟩ := List.eq_append_cons_of_mem hmem
    have hrest := takesComments_commentPieces rest
    rw [commentPieces, Text.lines_append hline, List.flatMap_cons, ← commentPieces]
    split_ifs with hcomment
    · exact ⟨rfl, Text.isCommentLine_iff.mp hcomment, hrest⟩
    · rw [Text.isCommentLine_iff] at hcomment
      have hnone : ∀ first behind, line ++ '\n' :: rest = first ++ behind → ¬ IsCommentLine first :=
        fun first behind => not_isCommentLine_of_append hline hcomment
      rw [List.map_append, List.append_assoc]
      refine TakesComments.chars hline (fun _ first behind heq => hnone first behind ?_) fun atEnd hend => ?_
      · rw [← heq, List.map_singleton, List.singleton_append, whole, whole_commentPieces]
      · refine ⟨fun htrue first behind heq => hnone first behind ?_, hrest⟩
        rw [← heq, (hend htrue).1]
        exact congrArg (List.cons _) (whole_commentPieces rest).symm
  · -- The last line has no line feed, so it stays.
    have hstays : ∀ line rest, text = line ++ rest → ¬ IsCommentLine line := by
      rintro line rest rfl hcomment
      obtain ⟨front, rfl, -⟩ := hcomment.exists_eq_append
      exact hmem (by simp)
    by_cases hne : text = []
    · subst hne
      trivial
    · have hlast : isCommentLine text = false := by
        rw [← Bool.not_eq_true, Text.isCommentLine_iff]
        exact hstays text [] (List.append_nil text).symm
      rw [commentPieces, Text.lines_eq_singleton hne hmem, List.flatMap_singleton, hlast, if_neg Bool.false_ne_true,
        ← List.append_nil (text.map Piece.char)]
      refine TakesComments.chars hmem (fun _ first behind heq => hstays first behind ?_) fun _ _ => trivial
      rw [← heq, whole, List.append_nil]
termination_by text.length

lemma kept_commentPieces (text : List Char) : kept (commentPieces text) = withoutComments text := by
  rw [(takesComments_commentPieces text).kept_eq.1 rfl, whole_commentPieces]

variable {dialect : Dialect} {stretch stretch' : List Char}

/-- What stays of a stretch of the text is the stretch without the lines of comments below its first one. -/
lemma AreStretches.eq_withoutCommentsBelow (h : AreStretches (commentPieces text) stretch stretch') :
    stretch' = withoutCommentsBelow stretch := by
  obtain ⟨passed, between, ahead, hpieces, hstart, rfl, rfl⟩ := h
  have htakes := takesComments_commentPieces text
  rw [hpieces] at htakes
  obtain ⟨_, hbetween⟩ := htakes.of_append.exists_of_append
  exact hbetween.kept_eq.2 hstart

/-! ## Programs -/

/-- Lines of comments can go from a text: the text is within the reach of offsets, none of these lines closes what may
have been opened above it, and none is in front of what is read differently at the start of a text. -/
structure CanLoseComments (dialect : Dialect) (text : List Char) : Prop where
  short : text.length < UInt32.size
  preamble : keepsPreamble (commentPieces text)
  harmless : Harmless dialect.markup {} (commentPieces text)

instance (dialect : Dialect) (text : List Char) : Decidable (CanLoseComments dialect text) :=
  decidable_of_iff (text.length < UInt32.size ∧ keepsPreamble (commentPieces text) ∧
      Harmless dialect.markup {} (commentPieces text))
    ⟨fun ⟨hshort, hpreamble, hharmless⟩ => ⟨hshort, hpreamble, hharmless⟩,
      fun ⟨hshort, hpreamble, hharmless⟩ => ⟨hshort, hpreamble, hharmless⟩⟩

/-- The text that a node covers. -/
def covered? (text : List Char) (node : Node) : Option (List Char) :=
  slice? (dropMark text) node.span.lo node.span.hi

/-- The second text has the same tree as the first one, and of what a node covers no more than lines of comments below
its first line is missing. -/
def HasSameTree (text text' : List Char) : List Node → List Node → Prop :=
  List.Forall₂ (Node.areAlike fun span span' =>
    slice? (dropMark text') span'.lo span'.hi = (slice? (dropMark text) span.lo span.hi).map withoutCommentsBelow)

/-- Nodes that stand for the text they cover: strings, templates, text in markup, numbers and regular expressions. -/
def Kind.isLiteral : Kind → Bool
  | .stringLiteral | .template | .markupText | .literal => true
  | _ => false

/-- The literals of a program as they are written. -/
def literals (text : List Char) (items : List Node) : List (List Char) :=
  ((Node.nodesOf items).filter (·.kind.isLiteral)).filterMap (covered? text)

/-- A text that can lose its lines of comments is a program exactly when it is one without them, and of the same tree. -/
theorem parse?_withoutComments (h : CanLoseComments dialect text) :
    Option.Rel (HasSameTree text (withoutComments text)) (parse? dialect text) (parse? dialect (withoutComments text)) := by
  have hrel := parse?_sideBySide h.preamble h.harmless (by rw [whole_commentPieces]; exact h.short)
  rw [whole_commentPieces, kept_commentPieces] at hrel
  generalize parse? dialect text = found at hrel ⊢
  generalize parse? dialect (withoutComments text) = found' at hrel ⊢
  cases hrel with
  | none => exact .none
  | some hitems =>
    refine .some (hitems.imp fun item item' halike => halike.imp fun span span' hspan => ?_)
    generalize slice? (dropMark text) span.lo span.hi = slice at hspan ⊢
    generalize slice? (dropMark (withoutComments text)) span'.lo span'.hi = slice' at hspan ⊢
    cases hspan with
    | none => rfl
    | some hstretches => rw [Option.map_some, hstretches.eq_withoutCommentsBelow]

/-- The literals of the same tree have lost the lines of comments below their first lines. -/
lemma HasSameTree.literals_eq {text' : List Char} {items items' : List Node} (h : HasSameTree text text' items items') :
    literals text' items' = (literals text items).map withoutCommentsBelow := by
  have hnodes := (Node.areAllAlike_iff.mpr h).nodesOf
  rw [literals, literals]
  generalize Node.nodesOf items = nodes at hnodes
  generalize Node.nodesOf items' = nodes' at hnodes
  induction hnodes with
  | nil => rfl
  | @cons node node' nodes nodes' hnode _ ih =>
    obtain ⟨hkind, hcovered⟩ := hnode
    replace hcovered : covered? text' node' = (covered? text node).map withoutCommentsBelow := hcovered
    rw [List.filter_cons, List.filter_cons, hkind]
    split_ifs
    · rw [List.filterMap_cons, List.filterMap_cons, hcovered]
      cases covered? text node with
      | none => exact ih
      | some literal => rw [Option.map_some, List.map_cons, ih]
    · exact ih

/-- The literals of the same tree are the same exactly when none of them has a line below its first one that looks like
a comment. -/
lemma HasSameTree.literals_eq_iff {text' : List Char} {items items' : List Node}
    (h : HasSameTree text text' items items') :
    literals text' items' = literals text items ↔ ∀ literal ∈ literals text items, ¬ Text.HasCommentBelow literal := by
  rw [h.literals_eq]
  conv_lhs => rhs; rw [← List.map_id (literals text items)]
  simp only [List.map_inj_left, id_eq, Text.withoutCommentsBelow_eq_self_iff]

end Syntax

open Syntax

namespace Transformer

variable {t : Transformer} {file : ProjectFile} {preserved : TransformedFile}

/-- Where a rule applies, a file that keeps its comments and one that does not differ in lines of comments only. -/
lemma transformFile_stripped (h : { t with preserveComments := true }.transformFile file = .ok (some preserved))
    (happlied : preserved.applied ≠ []) :
    { t with preserveComments := false }.transformFile file =
      .ok (some { preserved with content := String.ofList (withoutComments preserved.content.toList) }) := by
  simp only [transformFile, transformText, Bool.true_or, if_true] at h
  simp only [transformFile, transformText, Bool.false_or]
  split_ifs at h ⊢ with hsource
  · cases h
  generalize file.read = read at h ⊢
  cases read with
  | error cause => cases h
  | ok before =>
    dsimp only at h ⊢
    split_ifs at h with hparse
    cases h
    have hsome : ¬ (t.rules.applyAll before.toList).applied.isEmpty = true := by simpa using happlied
    rw [if_neg hparse, if_neg hsome, String.toList_ofList, replaceAll_commentLine]

/-- For every file that a rule applies to: where lines of comments can go from its final text, the final text without
them is a program of a dialect exactly when the one with them is, and has the same tree. Its strings, templates and
other literals are the same exactly when none of them has a line below its first one that looks like a comment. -/
theorem stripped_program_same (hpreserved : { t with preserveComments := true }.transformFile file = .ok (some preserved))
    (happlied : preserved.applied ≠ []) {dialect : Dialect} (hgo : CanLoseComments dialect preserved.content.toList) :
    ∃ stripped, { t with preserveComments := false }.transformFile file = .ok (some stripped) ∧
      stripped.path = preserved.path ∧ stripped.applied = preserved.applied ∧
      Option.Rel (fun items items' => HasSameTree preserved.content.toList stripped.content.toList items items' ∧
          (literals stripped.content.toList items' = literals preserved.content.toList items ↔
            ∀ literal ∈ literals preserved.content.toList items, ¬ Text.HasCommentBelow literal))
        (parse? dialect preserved.content.toList) (parse? dialect stripped.content.toList) := by
  refine ⟨_, transformFile_stripped hpreserved happlied, rfl, rfl, ?_⟩
  rw [String.toList_ofList]
  have hrel := parse?_withoutComments hgo
  generalize parse? dialect preserved.content.toList = found at hrel ⊢
  generalize parse? dialect (withoutComments preserved.content.toList) = found' at hrel ⊢
  cases hrel with
  | none => exact .none
  | some hsame => exact .some ⟨hsame, hsame.literals_eq_iff⟩

/-- A text with lines of comments around its code, one of them in a block comment, and with slashes in a string. -/
def commentedText (address : String) : String :=
  "// The address.\nconst u = " ++ address ++ ";\n/*\n // Old.\n*/\nconst s = '//' + \x60$\x7bu\x7d/\x60;\n  // End.\n"

def commentedFile : ProjectFile := ⟨"lib/url.ts", .inMemory (commentedText "process.env.NEXT_PUBLIC_A")⟩

/-- What the rules make of the file. -/
def commentedResult : TransformedFile where
  path := commentedFile.path
  before := commentedText "process.env.NEXT_PUBLIC_A"
  content := commentedText "import.meta.env.VITE_A"
  applied := ["Converted NEXT_PUBLIC_ environment variables to import.meta.env.VITE_"]

theorem stripped_program_same_commentedFile :
    { rules := .builtin, preserveComments := true : Transformer }.transformFile commentedFile =
      .ok (some commentedResult) ∧
    commentedResult.applied ≠ [] ∧ CanLoseComments .typedScript commentedResult.content.toList ∧
    ∃ stripped, { rules := .builtin, preserveComments := false : Transformer }.transformFile commentedFile =
        .ok (some stripped) ∧
      stripped.content = "const u = import.meta.env.VITE_A;\n/*\n*/\nconst s = '//' + \x60$\x7bu\x7d/\x60;\n" ∧
      ∃ items items', parse? .typedScript commentedResult.content.toList = some items ∧
        parse? .typedScript stripped.content.toList = some items' ∧
        HasSameTree commentedResult.content.toList stripped.content.toList items items' ∧
        literals stripped.content.toList items' = literals commentedResult.content.toList items := by
  have hread : commentedFile.read = .ok (commentedText "process.env.NEXT_PUBLIC_A") := rfl
  obtain ⟨hsource, houtcome⟩ :
      (parse? .typedScript (commentedText "process.env.NEXT_PUBLIC_A").toList).isSome = true ∧
      { rules := .builtin, preserveComments := true : Transformer }.transformText
        (commentedText "process.env.NEXT_PUBLIC_A").toList =
          ⟨(commentedText "import.meta.env.VITE_A").toList,
            ["Converted NEXT_PUBLIC_ environment variables to import.meta.env.VITE_"]⟩ := by
    unfold commentedText
    rw [String.toList_append, String.toList_append, String.toList_append, String.toList_append,
      String.toList_ofList, String.toList_ofList, String.toList_ofList, String.toList_ofList]
    decide +kernel
  have hpreserved : { rules := .builtin, preserveComments := true : Transformer }.transformFile commentedFile =
      .ok (some commentedResult) := by
    rw [transformFile_of_read (by decide) hread hsource, houtcome, String.ofList_toList]
    rfl
  obtain ⟨hgo, hprogram, hclear, hstrip⟩ :
      CanLoseComments .typedScript (commentedText "import.meta.env.VITE_A").toList ∧
      (parse? .typedScript (commentedText "import.meta.env.VITE_A").toList).isSome = true ∧
      (∀ items ∈ parse? .typedScript (commentedText "import.meta.env.VITE_A").toList,
        ∀ literal ∈ literals (commentedText "import.meta.env.VITE_A").toList items,
          ¬ Text.HasCommentBelow literal) ∧
      withoutComments (commentedText "import.meta.env.VITE_A").toList =
        "const u = import.meta.env.VITE_A;\n/*\n*/\nconst s = '//' + \x60$\x7bu\x7d/\x60;\n".toList := by
    unfold commentedText
    rw [String.toList_append, String.toList_append, String.toList_ofList, String.toList_ofList,
      String.toList_ofList, String.toList_ofList]
    decide +kernel
  obtain ⟨stripped, hstripped, -, -, hrel⟩ :=
    stripped_program_same (t := { rules := .builtin }) hpreserved (by decide) hgo
  cases hstripped.symm.trans (transformFile_stripped (t := { rules := .builtin }) hpreserved (by decide))
  refine ⟨hpreserved, by decide, hgo, _, hstripped, ?_, ?_⟩
  · exact (congrArg String.ofList hstrip).trans String.ofList_toList
  change ∃ items items', parse? .typedScript (commentedText "import.meta.env.VITE_A").toList = some items ∧ _
  change Option.Rel _ (parse? .typedScript (commentedText "import.meta.env.VITE_A").toList) _ at hrel
  generalize parse? .typedScript (commentedText "import.meta.env.VITE_A").toList = found at hrel hprogram hclear ⊢
  generalize parse? .typedScript (String.toList _) = found' at hrel ⊢
  cases hrel with
  | none => cases hprogram
  | @some items items' hsame => exact ⟨items, items', rfl, rfl, hsame.1, hsame.2.mpr (hclear items rfl)⟩

/-- A file with a line in a template that looks like a comment. -/
def templateFile : ProjectFile :=
  ⟨"lib/a.ts", .inMemory "const u = process.env.NEXT_PUBLIC_A;\nconst s = \x60\n// x\n\x60;\n"⟩

/-- The template of such a file loses a line: a rule applies, both final texts are programs, and their literals differ. -/
theorem template_loses_line : ∃ preserved stripped items items',
    { rules := .builtin, preserveComments := true : Transformer }.transformFile templateFile = .ok (some preserved) ∧
    preserved.applied ≠ [] ∧
    { rules := .builtin, preserveComments := false : Transformer }.transformFile templateFile = .ok (some stripped) ∧
    parse? (.ofPath templateFile.path) preserved.content.toList = some items ∧
    parse? (.ofPath templateFile.path) stripped.content.toList = some items' ∧
    literals stripped.content.toList items' ≠ literals preserved.content.toList items := by
  have hread : templateFile.read =
      .ok "const u = process.env.NEXT_PUBLIC_A;\nconst s = \x60\n// x\n\x60;\n" := rfl
  obtain ⟨hsource, houtcome⟩ :
      (parse? (.ofPath templateFile.path)
        "const u = process.env.NEXT_PUBLIC_A;\nconst s = \x60\n// x\n\x60;\n".toList).isSome = true ∧
      { rules := .builtin, preserveComments := true : Transformer }.transformText
        "const u = process.env.NEXT_PUBLIC_A;\nconst s = \x60\n// x\n\x60;\n".toList =
          ⟨"const u = import.meta.env.VITE_A;\nconst s = \x60\n// x\n\x60;\n".toList,
            ["Converted NEXT_PUBLIC_ environment variables to import.meta.env.VITE_"]⟩ := by
    rw [String.toList_ofList, String.toList_ofList]
    decide +kernel
  obtain ⟨preserved, hpreserved, hcontent, happlied⟩ : ∃ preserved,
      { rules := .builtin, preserveComments := true : Transformer }.transformFile templateFile = .ok (some preserved) ∧
      preserved.content.toList = "const u = import.meta.env.VITE_A;\nconst s = \x60\n// x\n\x60;\n".toList ∧
      preserved.applied ≠ [] := by
    refine ⟨_, transformFile_of_read (by decide) hread hsource, ?_, ?_⟩
    · rw [houtcome, String.ofList_toList]
    · rw [houtcome]
      exact List.cons_ne_nil _ _
  obtain ⟨hgo, hline⟩ : CanLoseComments (.ofPath templateFile.path) preserved.content.toList ∧
      ∃ items ∈ parse? (.ofPath templateFile.path) preserved.content.toList,
        ∃ literal ∈ literals preserved.content.toList items, Text.HasCommentBelow literal := by
    rw [hcontent, String.toList_ofList]
    decide +kernel
  obtain ⟨items, hitems, literal, hliteral, hbelow⟩ := hline
  have hrel := parse?_withoutComments hgo
  rw [Option.mem_def.mp hitems] at hrel
  generalize hfound : parse? (.ofPath templateFile.path) (withoutComments preserved.content.toList) = found at hrel
  cases hrel with
  | @some _ items' hsame =>
    refine ⟨preserved, _, items, items', hpreserved, happlied,
      transformFile_stripped (t := { rules := .builtin }) hpreserved happlied, hitems, ?_, fun heq => ?_⟩
    · rw [String.toList_ofList, hfound]
    · rw [String.toList_ofList] at heq
      exact hsame.literals_eq_iff.mp heq literal hliteral hbelow

end Transformer

end SpaMigration
