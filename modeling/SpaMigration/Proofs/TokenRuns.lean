import Mathlib.Tactic.SplitIfs
import SpaMigration.Proofs.TextCuts
import SpaMigration.Syntax.Grammar.Module

/-!
# Runs of the token reader

What the parsers of imports do in a state is told by the token of that state, and by those of the states
behind it. The token at a place is told by the text in front of it, up to the first character that cannot
belong to it; so names, and strings of plain characters, are read whatever text follows.
-/
namespace SpaMigration.Syntax

open TokenReader
open Text (byteSize)

section Runs

variable {α : Type} {g : Grammar} {ctx : Context} {start fuel : Nat} {s s' s'' : ReaderState} {a : α} {as : List α}
  {item : TokenReader α} {close : Punct} {name : String} {nodes : List Node}

@[simp] lemma run_token : token.run s = some (s.token, s) := rfl

@[simp] lemma run_advance : advance.run s = some ((), s.next) := rfl

@[simp] lemma run_offset : offset.run s = some (s.span.lo, s) := rfl

@[simp] lemma run_newlineBefore : newlineBefore.run s = some (s.newline, s) := rfl

@[simp] lemma run_peek : peek.run s = some ((s.next.token, s.next.newline), s) := rfl

@[simp] lemma run_atPunct (p : Punct) : (atPunct p).run s = some (s.token == .punct p, s) := rfl

@[simp] lemma run_atWord : (atWord name).run s = some (s.token == .word name false, s) := rfl

@[simp] lemma run_node (kind : Kind) (parts : List Node) :
    (node start kind parts).run s = some (.mk kind ⟨start, s.last.2⟩ parts, s) := rfl

lemma run_eat {p : Punct} (h : s.token = .punct p) : (eat p).run s = some (true, s.next) := by
  simp [eat, h]

lemma run_eat_of_ne {p : Punct} (h : s.token ≠ .punct p) : (eat p).run s = some (false, s) := by
  simp [eat, h]

lemma run_expect {p : Punct} (h : s.token = .punct p) : (expect p).run s = some ((), s.next) := by
  simp [expect, run_eat h, require]

lemma run_expect_of_ne {p : Punct} (h : s.token ≠ .punct p) : (expect p).run s = none := by
  have hfails : (require false).run s = none := rfl
  simp [expect, run_eat_of_ne h, hfails]

lemma run_eatWord_of_ne (h : s.token ≠ .word name false) : (eatWord name).run s = some (false, s) := by
  simp [eatWord, h]

lemma run_expectWord (h : s.token = .word name false) : (expectWord name).run s = some ((), s.next) := by
  simp [expectWord, eatWord, require, h]

lemma run_attempt_of_none {p : TokenReader α} (h : p.run s = none) : (attempt p).run s = some (none, s) := by
  have hp : p s = none := h
  change attempt p s = some (none, s)
  rw [attempt, hp]

lemma run_collect_some {round : TokenReader (Option α)} (hround : round.run s = some (some a, s'))
    (hrest : (collect round fuel).run s' = some (as, s'')) :
    (collect round (fuel + 1)).run s = some (a :: as, s'') := by
  simp [collect, hround, hrest]

lemma run_commaList_last (hopen : s.token ≠ .punct close) (hitem : item.run s = some (a, s'))
    (hclose : s'.token = .punct close) : (commaList (fuel + 2) close item).run s = some ([a], s'.next) := by
  simp [commaList, collect, hopen, hitem, hclose, run_expect hclose]

lemma run_commaList_cons (hopen : s.token ≠ .punct close) (hitem : item.run s = some (a, s'))
    (hcomma : s'.token = .punct .comma) (hclose : close ≠ .comma)
    (hrest : (commaList fuel close item).run s'.next = some (as, s'')) :
    (commaList (fuel + 1) close item).run s = some (a :: as, s'') := by
  unfold commaList at hrest ⊢
  rw [StateT.run_bind] at hrest ⊢
  obtain ⟨⟨items, last⟩, hcollect, hend⟩ := Option.bind_eq_some_iff.mp hrest
  rw [StateT.run_bind] at hend
  obtain ⟨⟨_, behind⟩, hexpect, hitems⟩ := Option.bind_eq_some_iff.mp hend
  cases hitems
  rw [run_collect_some (a := a) ?_ hcollect]
  · simp only [Option.bind_eq_bind, Option.bind_some, StateT.run_bind, hexpect]
    rfl
  · simp [hopen, hitem, hcomma, run_expect hcomma, hclose.symm]

lemma run_bindingName (hname : s.token = .word name false) (hbind : isBindable ctx name = true) :
    (bindingName ctx).run s = some (name, s.next) := by
  simp [bindingName, hname, hbind, require]

lemma run_importSpecifier (hname : s.token = .word name false) (htype : name ≠ "type")
    (hbind : isBindable ctx name = true) (has : s.next.token ≠ .word "as" false) :
    (importSpecifier ctx).run s = some (.mk (.importNamed name) ⟨s.span.lo, s.next.last.2⟩ [], s.next) := by
  simp [importSpecifier, typeMark, moduleName, hname, htype, run_eatWord_of_ne has, require, hbind]

lemma run_importSpecifiers_braces (hbrace : s.token = .punct .braceOpen)
    (hlist : (commaList g.fuel .braceClose (importSpecifier ctx)).run s.next = some (nodes, s')) :
    (importSpecifiers g ctx).run s = some (nodes, s') := by
  simp [importSpecifiers, importOthers, atAnyWord, hbrace, run_expect hbrace, hlist]

lemma run_importSpecifiers_default (hname : s.token = .word name false) (hbind : isBindable ctx name = true)
    (hcomma : s.next.token ≠ .punct .comma) : (importSpecifiers g ctx).run s =
      some ([.mk (.importDefault name) ⟨s.span.lo, s.next.last.2⟩ []], s.next) := by
  simp [importSpecifiers, atAnyWord, hname, run_bindingName hname hbind, run_eat_of_ne hcomma]

lemma run_typeOnlyMark_of_ne (h : s.token ≠ .word "type" false) :
    (typeOnlyMark ctx).run s = some (false, s) := by
  simp [typeOnlyMark, h]

/-- No alias is made where the head of one cannot be read. -/
lemma run_importAlias?_of_none (h : (do
      let _ ← typeOnlyMark ctx
      let _ ← bindingName ctx
      expect .assign : TokenReader Unit).run s = none) :
    (importAlias? g ctx start).run s = some (none, s) := by
  unfold importAlias?
  split_ifs
  · rfl
  · rw [StateT.run_bind, run_attempt_of_none h]
    rfl

lemma run_importAlias?_braces (h : s.token = .punct .braceOpen) :
    (importAlias? g ctx start).run s = some (none, s) := by
  refine run_importAlias?_of_none ?_
  have htype : s.token ≠ .word "type" false := by simp [h]
  simp [run_typeOnlyMark_of_ne htype, bindingName, h]

lemma run_importAlias?_default (hname : s.token = .word name false) (htype : name ≠ "type")
    (hbind : isBindable ctx name = true) (hassign : s.next.token ≠ .punct .assign) :
    (importAlias? g ctx start).run s = some (none, s) := by
  refine run_importAlias?_of_none ?_
  have hmark : s.token ≠ .word "type" false := by simp [hname, htype]
  simp [run_typeOnlyMark_of_ne hmark, run_bindingName hname hbind, run_expect_of_ne hassign]

lemma run_importAttributes_of_ne (hwith : s.token ≠ .word "with" false) (hassert : s.token ≠ .word "assert" false) :
    (importAttributes g ctx).run s = some ([], s) := by
  simp [importAttributes, hwith, hassert]

lemma run_semicolon (h : s.token = .punct .semicolon) : semicolon.run s = some ((), s.next) := by
  simp [semicolon, run_eat h]

variable {s₀ s₁ s₂ s₃ s₄ : ReaderState} {specifiers : List Node} {source found : Node}

/-- An import is read part by part: its word, its specifiers, its source and its end. -/
lemma run_importDeclaration (hword : s₀.token = .word "import" false) (hnext : s₀.next = s₁)
    (hstring : s₁.token ≠ .string) (halias : (importAlias? g ctx start).run s₁ = some (none, s₁))
    (hmark : (typeOnlyMark ctx).run s₁ = some (false, s₁))
    (hspecifiers : (importSpecifiers g ctx).run s₁ = some (specifiers, s₂))
    (hsource : fromSource.run s₂ = some (source, s₃))
    (hattributes : (importAttributes g ctx).run s₃ = some ([], s₃))
    (hend : semicolon.run s₃ = some ((), s₄)) :
    (importDeclaration g ctx start).run s₀ =
      some (.mk (.importDeclaration false) ⟨start, s₄.last.2⟩ (specifiers ++ [source]), s₄) := by
  have htoken : token.run s₁ = some (s₁.token, s₁) := rfl
  simp only [importDeclaration, StateT.run_bind, run_expectWord hword, hnext, htoken, Option.bind_eq_bind,
    Option.bind_some, beq_iff_eq, hstring, if_false, halias, hmark, hspecifiers, hsource, hattributes, hend]
  rfl

lemma run_moduleItem (hword : s₀.token = .word "import" false) (hnext : s₀.next = s₁)
    (hparen : s₁.token ≠ .punct .parenOpen) (hdot : s₁.token ≠ .punct .dot)
    (himport : (importDeclaration g ctx s₀.span.lo).run s₀ = some (found, s₄)) :
    (moduleItem g ctx).run s₀ = some (found, s₄) := by
  have hoffset : offset.run s₀ = some (s₀.span.lo, s₀) := rfl
  have hat : (atWord "import").run s₀ = some (true, s₀) := by simp [atWord, token, hword]
  have hpeek : peek.run s₀ = some ((s₁.token, s₁.newline), s₀) := by
    rw [← hnext]
    rfl
  simp only [moduleItem, StateT.run_bind, hoffset, hat, hpeek, Option.bind_eq_bind, Option.bind_some, if_true]
  exact himport

end Runs

/-! ## Tokens in front of any text -/

lemma after_of_skipGap {s text : List Char} {offset offset' : Nat} {newline : Bool}
    (h : Token.skipGap .code s offset false = some ((text, offset'), newline)) :
    ReaderState.after (s, offset) = ⟨(Token.read (text, offset')).1,
      ⟨offset', (Token.read (text, offset')).2.2⟩, (text, offset'), (Token.read (text, offset')).2, newline,
      (s, offset)⟩ := by
  simp only [ReaderState.after, h]

/-- A word starts with this letter, and so does no gap. -/
def startsWord (c : Char) : Bool :=
  Text.isIdentifierStart c && !Text.isLineTerminator c && !Token.isInlineBlank c

/-- A name as it can stand in an import: a word that may be bound, other than the one that marks types. -/
structure IsPlainName (name : List Char) : Prop where
  starts : name.head?.any startsWord = true
  parts : name.all Text.isIdentifierPart = true
  bindable : isBindable { dialect := .typedMarkup } (String.ofList name) = true
  ne_type : String.ofList name ≠ "type"

instance (name : List Char) : Decidable (IsPlainName name) :=
  decidable_of_iff (name.head?.any startsWord = true ∧ name.all Text.isIdentifierPart = true ∧
      isBindable { dialect := .typedMarkup } (String.ofList name) = true ∧ String.ofList name ≠ "type")
    ⟨fun ⟨h₁, h₂, h₃, h₄⟩ => ⟨h₁, h₂, h₃, h₄⟩, fun ⟨h₁, h₂, h₃, h₄⟩ => ⟨h₁, h₂, h₃, h₄⟩⟩

/-- Neither part of a word nor the start of an escape. -/
def endsWord (text : List Char) : Bool := text.head?.all fun c => !Text.isIdentifierPart c && c != '\\'

lemma skipGap_of_startsWord {c : Char} (h : startsWord c = true) (rest : List Char) (offset : Nat) (line : Bool) :
    Token.skipGap .code (c :: rest) offset line = some ((c :: rest, offset), line) := by
  simp only [startsWord, Bool.and_eq_true, Bool.not_eq_true'] at h
  obtain ⟨⟨hstart, hterminator⟩, hblank⟩ := h
  have hslash : c ≠ '/' := by
    rintro rfl
    exact absurd hstart (by decide)
  rw [Token.skipGap]
  · simp [hterminator, hblank]
  · exact fun _ hc _ => hslash hc
  · exact fun _ hc _ => hslash hc

lemma word?_append {name rest : List Char} (hname : name ≠ []) (hparts : name.all Text.isIdentifierPart = true)
    (hrest : endsWord rest = true) (offset : Nat) : Token.word? (name ++ rest, offset) =
      some (String.ofList name, false, rest, offset + byteSize name) := by
  have hplain : (name ++ rest).takeWhile Text.isIdentifierPart = name := by
    rw [List.takeWhile_append_of_pos (List.all_eq_true.mp hparts)]
    cases rest with
    | nil => simp
    | cons d ds =>
      simp only [endsWord, List.head?_cons, Option.all_some, Bool.and_eq_true, Bool.not_eq_true'] at hrest
      simp [hrest.1]
  simp only [Token.word?, hplain, List.drop_left]
  split
  · simp [endsWord] at hrest
  · simp [hname]

/-- A name behind a blank is a token. -/
lemma after_name {name rest : List Char} (h : IsPlainName name) (hrest : endsWord rest = true) (offset : Nat) :
    ReaderState.after (' ' :: (name ++ rest), offset) =
      ⟨.word (String.ofList name) false, ⟨offset + 1, offset + 1 + byteSize name⟩, (name ++ rest, offset + 1),
        (rest, offset + 1 + byteSize name), false, (' ' :: (name ++ rest), offset)⟩ := by
  obtain ⟨hstarts, hparts, -, -⟩ := h
  obtain ⟨c, cs, rfl⟩ : ∃ c cs, name = c :: cs := by
    cases name with
    | nil => simp at hstarts
    | cons c cs => exact ⟨c, cs, rfl⟩
  rw [List.head?_cons, Option.any_some] at hstarts
  have hskip : Token.skipGap .code (' ' :: (c :: cs ++ rest)) offset false =
      some ((c :: cs ++ rest, offset + 1), false) := skipGap_of_startsWord hstarts _ _ _
  have hread : Token.read (c :: cs ++ rest, offset + 1) =
      (.word (String.ofList (c :: cs)) false, (rest, offset + 1 + byteSize (c :: cs))) := by
    have hword := word?_append (List.cons_ne_nil c cs) hparts hrest (offset + 1)
    simp only [startsWord, Bool.and_eq_true] at hstarts
    simp only [List.cons_append] at hword ⊢
    simp only [Token.read, hstarts.1.1, Bool.true_or, if_true, hword, Option.map_some, Token.orInvalid]
  rw [after_of_skipGap hskip, hread]

section Names

variable {name rest : List Char}

lemma token_name (h : IsPlainName name) (hrest : endsWord rest = true) (offset : Nat) :
    (ReaderState.after (' ' :: (name ++ rest), offset)).token = .word (String.ofList name) false := by
  rw [after_name h hrest]

lemma lo_name (h : IsPlainName name) (hrest : endsWord rest = true) (offset : Nat) :
    (ReaderState.after (' ' :: (name ++ rest), offset)).span.lo = offset + 1 := by
  rw [after_name h hrest]

lemma next_name (h : IsPlainName name) (hrest : endsWord rest = true) (offset : Nat) :
    (ReaderState.after (' ' :: (name ++ rest), offset)).next = .after (rest, offset + 1 + byteSize name) := by
  rw [after_name h hrest, ReaderState.next]

lemma last_after (place : Token.Place) : (ReaderState.after place).last = place := by
  unfold ReaderState.after
  split <;> rfl

end Names

/-- The text can stand between quotes as it is. -/
def IsPlain (package : List Char) : Prop :=
  ∀ c ∈ package, c ≠ '\'' ∧ c ≠ '\\' ∧ c ≠ '\n' ∧ c ≠ '\r'

instance (package : List Char) : Decidable (IsPlain package) := List.decidableBAll _ _

lemma skipString_of_isPlain {package : List Char} (h : IsPlain package) (rest : List Char) (offset : Nat) :
    Token.skipString '\'' .text (package ++ '\'' :: rest) offset =
      some (rest, offset + byteSize package + 1) := by
  induction package generalizing offset with
  | nil => simp [Token.skipString]
  | cons c cs ih =>
    obtain ⟨⟨hquote, hescape, hline, hreturn⟩, hcs⟩ := List.forall_mem_cons.mp h
    simp [Token.skipString, hquote, hescape, hline, hreturn, ih hcs, Nat.add_assoc]

/-- A package in quotes is a string. -/
lemma after_quoted {package : List Char} (h : IsPlain package) (rest : List Char) (offset : Nat) :
    ReaderState.after (' ' :: '\'' :: (package ++ '\'' :: rest), offset) =
      ⟨.string, ⟨offset + 1, offset + byteSize package + 3⟩, ('\'' :: (package ++ '\'' :: rest), offset + 1),
        (rest, offset + byteSize package + 3), false, (' ' :: '\'' :: (package ++ '\'' :: rest), offset)⟩ := by
  have hskip : Token.skipGap .code (' ' :: '\'' :: (package ++ '\'' :: rest)) offset false =
      some (('\'' :: (package ++ '\'' :: rest), offset + 1), false) := rfl
  have hread : Token.read ('\'' :: (package ++ '\'' :: rest), offset + 1) =
      Token.orInvalid ('\'' :: (package ++ '\'' :: rest), offset + 1)
        ((Token.skipString '\'' .text (package ++ '\'' :: rest) (offset + 1 + 1)).map fun behind =>
          (.string, behind)) := rfl
  have hoffset : offset + 1 + 1 + byteSize package + 1 = offset + byteSize package + 3 := by omega
  rw [skipString_of_isPlain h, hoffset] at hread
  rw [after_of_skipGap hskip, hread]
  rfl

lemma run_stringNode {s : ReaderState} (h : s.token = .string) :
    stringNode.run s = some (.mk .stringLiteral ⟨s.span.lo, s.next.last.2⟩ [], s.next) := by
  simp [stringNode, h, require]

lemma run_fromSource {package : List Char} (h : IsPlain package) (rest : List Char) (offset : Nat) :
    fromSource.run (.after (" from '".toList ++ (package ++ '\'' :: rest), offset)) =
      some (.mk .stringLiteral ⟨offset + 6, offset + byteSize package + 8⟩ [],
        .after (rest, offset + byteSize package + 8)) := by
  have hword : (ReaderState.after (" from '".toList ++ (package ++ '\'' :: rest), offset)).token =
      .word "from" false := rfl
  have hnext : (ReaderState.after (" from '".toList ++ (package ++ '\'' :: rest), offset)).next =
      .after (' ' :: '\'' :: (package ++ '\'' :: rest), offset + 5) := rfl
  have hoffset : offset + 5 + byteSize package + 3 = offset + byteSize package + 8 := by omega
  have hquoted := after_quoted h rest (offset + 5)
  rw [hoffset] at hquoted
  rw [fromSource, StateT.run_bind, run_expectWord hword]
  simp only [Option.bind_eq_bind, Option.bind_some, hnext]
  rw [run_stringNode (by rw [hquoted]), hquoted, ReaderState.next, last_after]

end SpaMigration.Syntax
