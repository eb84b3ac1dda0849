import SpaMigration.Proofs.ItemReading
import SpaMigration.Proofs.TokenRuns

/-!
# Import statements as items

An import of names or of a default, with its source in plain quotes and a semicolon at its end, is read as one
item whatever follows it: nothing behind the semicolon is looked at.
-/
namespace SpaMigration.Syntax

open TokenReader
open Text (byteSize slice?_eq_some_iff)

section Clauses

/-! ## Names in braces -/

variable {name rest : List Char} {others : List (List Char)}

/-- The names behind the first one of a clause, up to its closing brace. -/
def namesBehind : List (List Char) → List Char
  | [] => " \x7d".toList
  | name :: others => ',' :: ' ' :: (name ++ namesBehind others)

/-- The specifiers that such names are read as. -/
def nameNodes (offset : Nat) : List (List Char) → List Node
  | [] => []
  | name :: others =>
    .mk (.importNamed (String.ofList name)) ⟨offset + 1, offset + 1 + byteSize name⟩ [] ::
      nameNodes (offset + 1 + byteSize name + 1) others

lemma endsWord_namesBehind (others : List (List Char)) (rest : List Char) :
    endsWord (namesBehind others ++ rest) = true := by
  cases others <;> rfl

lemma length_le_namesBehind (others : List (List Char)) : others.length ≤ (namesBehind others).length := by
  induction others with
  | nil => exact Nat.zero_le _
  | cons other others ih =>
    simp only [namesBehind, List.length_cons, List.length_append]
    omega

lemma run_name (h : IsPlainName name) (others : List (List Char)) (rest : List Char) (offset : Nat)
    (has : (ReaderState.after (namesBehind others ++ rest, offset + 1 + byteSize name)).token ≠ .word "as" false) :
    (importSpecifier { dialect := .typedMarkup }).run (.after (' ' :: (name ++ (namesBehind others ++ rest)), offset)) =
      some (.mk (.importNamed (String.ofList name)) ⟨offset + 1, offset + 1 + byteSize name⟩ [],
        .after (namesBehind others ++ rest, offset + 1 + byteSize name)) := by
  have hends := endsWord_namesBehind others rest
  rw [run_importSpecifier (token_name h hends offset) h.ne_type h.bindable (by rwa [next_name h hends]),
    lo_name h hends, next_name h hends, last_after]

/-- Names are read up to the closing brace, one from each round. -/
lemma run_names {fuel : Nat} (h : IsPlainName name) (hothers : ∀ other ∈ others, IsPlainName other)
    (hfuel : others.length + 2 ≤ fuel) (rest : List Char) (offset : Nat) :
    (commaList fuel .braceClose (importSpecifier { dialect := .typedMarkup })).run
        (.after (' ' :: (name ++ (namesBehind others ++ rest)), offset)) =
      some (nameNodes offset (name :: others),
        .after (rest, offset + 1 + byteSize name + byteSize (namesBehind others))) := by
  induction others generalizing name fuel offset with
  | nil =>
    obtain ⟨fuel, rfl⟩ := Nat.exists_eq_add_of_le' hfuel
    have hopen : (ReaderState.after (' ' :: (name ++ (namesBehind [] ++ rest)), offset)).token ≠
        .punct .braceClose := by
      simp [token_name h (endsWord_namesBehind [] rest)]
    have hclose : (ReaderState.after (namesBehind [] ++ rest, offset + 1 + byteSize name)).token =
        .punct .braceClose := rfl
    exact run_commaList_last hopen (run_name h [] rest offset (by simp [hclose])) hclose
  | cons other others ih =>
    obtain ⟨hother, hothers⟩ := List.forall_mem_cons.mp hothers
    obtain ⟨fuel, rfl⟩ : ∃ n, fuel = n + 1 := Nat.exists_eq_add_one.mpr (by omega)
    have hopen : (ReaderState.after (' ' :: (name ++ (namesBehind (other :: others) ++ rest)), offset)).token ≠
        .punct .braceClose := by
      simp [token_name h (endsWord_namesBehind (other :: others) rest)]
    have hrest := ih hother hothers (by simpa using hfuel) (offset + 1 + byteSize name + 1)
    have hcomma : (ReaderState.after (namesBehind (other :: others) ++ rest, offset + 1 + byteSize name)).token =
        .punct .comma := rfl
    have hnext : (ReaderState.after (namesBehind (other :: others) ++ rest, offset + 1 + byteSize name)).next =
        .after (' ' :: (other ++ (namesBehind others ++ rest)), offset + 1 + byteSize name + 1) := by
      rw [← List.append_assoc]
      rfl
    rw [← hnext] at hrest
    rw [run_commaList_cons hopen (run_name h _ rest offset (by simp [hcomma])) hcomma (by decide) hrest]
    have hbytes : offset + 1 + byteSize name + byteSize (namesBehind (other :: others)) =
        offset + 1 + byteSize name + 1 + 1 + byteSize other + byteSize (namesBehind others) := by
      have hseparator : byteSize (namesBehind (other :: others)) =
          1 + (1 + byteSize (other ++ namesBehind others)) := rfl
      rw [hseparator, Text.byteSize_append]
      omega
    rw [hbytes]
    rfl

lemma isSound_append_right {dialect : Dialect} {text : List Char} {items : List Node}
    (h : isSound dialect text items = true) (more : List Char) : isSound dialect (text ++ more) items = true := by
  simp only [isSound, List.all_eq_true, Bool.and_eq_true] at h ⊢
  intro node hnode
  obtain ⟨hfits, hkind⟩ := h node hnode
  obtain ⟨middle, hmiddle⟩ := Option.isSome_iff_exists.mp hfits
  exact ⟨Option.isSome_iff_exists.mpr ⟨middle, Text.slice?_append_right hmiddle more⟩, hkind⟩

lemma isSound_append (text : List Char) (items more : List Node) :
    isSound .typedMarkup text (items ++ more) =
      (isSound .typedMarkup text items && isSound .typedMarkup text more) := by
  induction items with
  | nil => rfl
  | cons item items ih => rw [List.cons_append, isSound_cons, ih, isSound_cons _ _ item items, Bool.and_assoc]

lemma isSound_mk (text : List Char) (kind : Kind) (span : Span) (parts : List Node) :
    isSound .typedMarkup text [.mk kind span parts] = (span.fits text && isSound .typedMarkup text parts) := by
  simp [isSound, Node.nodesOf, Node.nodes, Node.span, Dialect.typedMarkup]

lemma fits_between (front middle back : List Char) :
    (⟨byteSize front, byteSize front + byteSize middle⟩ : Span).fits (front ++ (middle ++ back)) = true :=
  Option.isSome_iff_exists.mpr ⟨middle, slice?_eq_some_iff.mpr ⟨front, back, by simp, rfl, by simp⟩⟩

/-- A node without parts is sound when it covers characters of the text. -/
lemma isSound_leaf (kind : Kind) (front middle back : List Char) :
    isSound .typedMarkup (front ++ (middle ++ back))
      [.mk kind ⟨byteSize front, byteSize front + byteSize middle⟩ []] = true := by
  rw [isSound_mk, fits_between]
  rfl

lemma isSound_nameNodes (front name : List Char) (others : List (List Char)) {offset : Nat}
    (hoffset : offset + 1 = byteSize front) :
    isSound .typedMarkup (front ++ (name ++ namesBehind others)) (nameNodes offset (name :: others)) = true := by
  induction others generalizing front name offset with
  | nil =>
    rw [nameNodes, hoffset]
    exact isSound_leaf _ front name _
  | cons other others ih =>
    have hothers : isSound .typedMarkup (front ++ (name ++ namesBehind (other :: others)))
        (nameNodes (offset + 1 + byteSize name + 1) (other :: others)) = true := by
      have hbytes : offset + 1 + byteSize name + 1 + 1 = byteSize (front ++ name ++ ", ".toList) := by
        simp [hoffset]
        rfl
      have hbehind := ih (front ++ name ++ ", ".toList) other hbytes
      rwa [List.append_assoc, List.append_assoc] at hbehind
    rw [nameNodes, isSound_cons, hothers, Bool.and_true, hoffset]
    exact isSound_leaf _ front name _

end Clauses

/-! ## Import statements -/

/-- The text is read as one item, whatever follows it. -/
structure IsClosed (dialect : Dialect) (body : List Char) (item : Node) : Prop where
  ne_nil : body ≠ []
  gap : ∀ rest, afterGap? (body ++ rest) = some (body ++ rest)
  read : ∀ rest, item? dialect (body ++ rest) = some (item, body.length)
  sound : isSound dialect body [item] = true

/-- What follows the word `import` up to the package. -/
def clauseText (clause rest : List Char) : List Char := ' ' :: (clause ++ (" from '".toList ++ rest))

/-- What stands between the words `import` and `from`: a text that is read as specifiers, whatever source
follows. -/
structure IsClause (clause : List Char) (specifiers : List Node) : Prop where
  starts : ∀ rest, (ReaderState.after (clauseText clause rest, 6)).token ∉
    [.string, .punct .parenOpen, .punct .dot, .word "type" false]
  noAlias : ∀ g rest, (importAlias? g { dialect := .typedMarkup } 0).run (.after (clauseText clause rest, 6)) =
    some (none, .after (clauseText clause rest, 6))
  read : ∀ g rest, clause.length ≤ g.fuel →
    (importSpecifiers g { dialect := .typedMarkup }).run (.after (clauseText clause rest, 6)) =
      some (specifiers, .after (" from '".toList ++ rest, 7 + byteSize clause))
  sound : isSound .typedMarkup ("import ".toList ++ clause) specifiers = true

/-- The default of a module, under a name. -/
theorem isClause_default {name : List Char} (h : IsPlainName name) :
    IsClause name [.mk (.importDefault (String.ofList name)) ⟨7, 7 + byteSize name⟩ []] where
  starts rest := by
    rw [clauseText, token_name h rfl]
    simp [h.ne_type]
  noAlias g rest := by
    refine run_importAlias?_default (token_name h rfl 6) h.ne_type h.bindable ?_
    rw [clauseText, next_name h rfl]
    exact Token.noConfusion
  read g rest _ := by
    have hcomma : (ReaderState.after (clauseText name rest, 6)).next.token ≠ .punct .comma := by
      rw [clauseText, next_name h rfl]
      exact Token.noConfusion
    rw [clauseText] at hcomma ⊢
    rw [run_importSpecifiers_default (token_name h rfl 6) h.bindable hcomma, lo_name h rfl, next_name h rfl,
      last_after]
  sound := by
    have hleaf := isSound_leaf (.importDefault (String.ofList name)) "import ".toList name []
    rwa [List.append_nil] at hleaf

/-- Names in braces. -/
theorem isClause_names {name : List Char} {others : List (List Char)} (h : IsPlainName name)
    (hothers : ∀ other ∈ others, IsPlainName other) :
    IsClause ('\x7b' :: ' ' :: (name ++ namesBehind others)) (nameNodes 8 (name :: others)) where
  starts rest := by
    change Token.punct .braceOpen ∉ _
    decide
  noAlias g rest := run_importAlias?_braces rfl
  read g rest hfuel := by
    have hlength := length_le_namesBehind others
    have hcount : others.length + 2 ≤ g.fuel := by
      simp only [List.length_cons, List.length_append] at hfuel
      omega
    have hlist := run_names h hothers hcount (" from '".toList ++ rest) 8
    have hbytes : 8 + 1 + byteSize name + byteSize (namesBehind others) =
        7 + byteSize ('\x7b' :: ' ' :: (name ++ namesBehind others)) := by
      have hclause : byteSize ('\x7b' :: ' ' :: (name ++ namesBehind others)) =
          1 + (1 + byteSize (name ++ namesBehind others)) := rfl
      rw [hclause, Text.byteSize_append]
      omega
    rw [← List.append_assoc name, hbytes] at hlist
    exact run_importSpecifiers_braces rfl hlist
  sound := isSound_nameNodes "import \x7b ".toList name others rfl

/-- The statement that imports a clause from a package. -/
def importText (clause package : List Char) : List Char :=
  "import".toList ++ clauseText clause (package ++ "';".toList)

/-- The declaration that such a statement is read as. -/
def importNode (clause package : List Char) (specifiers : List Node) : Node :=
  .mk (.importDeclaration false) ⟨0, byteSize (importText clause package)⟩
    (specifiers ++ [.mk .stringLiteral ⟨byteSize clause + 13, byteSize clause + byteSize package + 15⟩ []])

variable {clause package : List Char} {specifiers : List Node}

lemma byteSize_importText (clause package : List Char) :
    byteSize (importText clause package) = 7 + byteSize clause + byteSize package + 8 + 1 := by
  have himport : byteSize "import".toList = 6 := rfl
  have hfrom : byteSize " from '".toList = 7 := rfl
  have hend : byteSize "';".toList = 2 := rfl
  have hblank : ' '.utf8Size = 1 := rfl
  -- The equation of a definition that starts with a literal takes long to derive, so it is unfolded by `delta`.
  delta importText
  simp only [clauseText, Text.byteSize_append, Text.byteSize_cons, himport, hfrom, hend, hblank]
  omega

/-- Reading such a statement takes its words, its clause, its package and its semicolon, and no more. -/
lemma run_importText (hclause : IsClause clause specifiers) (hpackage : IsPlain package) (rest : List Char)
    {g : Grammar} (hfuel : clause.length ≤ g.fuel) :
    (moduleItem g { dialect := .typedMarkup }).run (.after (importText clause package ++ rest, 0)) =
      some (importNode clause package specifiers, .after (rest, byteSize (importText clause package))) := by
  have htext : importText clause package ++ rest =
      "import".toList ++ clauseText clause (package ++ '\'' :: ';' :: rest) := by
    have hend : "';".toList = ['\'', ';'] := rfl
    delta importText
    simp only [clauseText, hend, List.append_assoc, List.cons_append, List.nil_append]
  have hbytes := byteSize_importText clause package
  rw [htext]
  generalize hbehind : package ++ '\'' :: ';' :: rest = behind
  have hword : (ReaderState.after ("import".toList ++ clauseText clause behind, 0)).token =
      .word "import" false := rfl
  have hnext : (ReaderState.after ("import".toList ++ clauseText clause behind, 0)).next =
      .after (clauseText clause behind, 6) := rfl
  have hstart := hclause.starts behind
  simp only [List.mem_cons, List.not_mem_nil, or_false, not_or] at hstart
  obtain ⟨hstring, hparen, hdot, htype⟩ := hstart
  have hsource := run_fromSource hpackage (';' :: rest) (7 + byteSize clause)
  rw [hbehind] at hsource
  refine run_moduleItem hword hnext hparen hdot ?_
  have himport := run_importDeclaration hword hnext hstring (hclause.noAlias g behind)
    (run_typeOnlyMark_of_ne htype) (hclause.read g behind hfuel) hsource
    (run_importAttributes_of_ne Token.noConfusion Token.noConfusion) (run_semicolon rfl)
  have hend : (ReaderState.after (';' :: rest, 7 + byteSize clause + byteSize package + 8)).next =
      .after (rest, byteSize (importText clause package)) := by
    rw [hbytes]
    rfl
  have hpackageSpan : (⟨7 + byteSize clause + 6, 7 + byteSize clause + byteSize package + 8⟩ : Span) =
      ⟨byteSize clause + 13, byteSize clause + byteSize package + 15⟩ := by
    simp only [Span.mk.injEq]
    omega
  rw [hend, last_after, hpackageSpan] at himport
  exact himport

lemma item?_importText (hclause : IsClause clause specifiers) (hpackage : IsPlain package) (rest : List Char) :
    item? .typedMarkup (importText clause package ++ rest) =
      some (importNode clause package specifiers, (importText clause package).length) := by
  have hlength : clause.length ≤ depthFor (importText clause package ++ rest) - 1 := by
    delta importText depthFor
    simp [clauseText]
    omega
  obtain ⟨fuel, hfuel⟩ : ∃ fuel, depthFor (importText clause package ++ rest) = fuel + 1 :=
    Nat.exists_eq_add_one.mpr (by unfold depthFor; omega)
  rw [hfuel] at hlength
  have hrun := run_importText hclause hpackage rest (g := ⟨fuel, parseAt fuel⟩) hlength
  simp only [item?, hfuel, parseAt]
  rw [hrun]
  simp [last_after]

/-- An import of a clause from a plain package is read as one item, whatever follows it. -/
theorem isClosed_importText (hclause : IsClause clause specifiers) (hpackage : IsPlain package) :
    IsClosed .typedMarkup (importText clause package) (importNode clause package specifiers) where
  ne_nil := List.cons_ne_nil _ _
  gap _ := rfl
  read := item?_importText hclause hpackage
  sound := by
    have htext : importText clause package =
        "import ".toList ++ clause ++ (" from '".toList ++ (package ++ "';".toList)) := by
      delta importText
      simp [clauseText]
    have hsource := isSound_leaf .stringLiteral ("import ".toList ++ clause ++ " from ".toList)
      ('\'' :: (package ++ ['\''])) [';']
    have hlo : byteSize ("import ".toList ++ clause ++ " from ".toList) = byteSize clause + 13 := by
      have hwords : byteSize "import ".toList + byteSize " from ".toList = 13 := rfl
      simp only [Text.byteSize_append]
      omega
    have hhi : byteSize clause + 13 + byteSize ('\'' :: (package ++ ['\''])) =
        byteSize clause + byteSize package + 15 := by
      have hquotes : '\''.utf8Size = 1 := rfl
      simp only [Text.byteSize_append, Text.byteSize_cons, Text.byteSize_nil, hquotes]
      omega
    have hbehind : "import ".toList ++ clause ++ " from ".toList ++ ('\'' :: (package ++ ['\'']) ++ [';']) =
        importText clause package := by
      simp [htext]
    rw [hlo, hhi, hbehind] at hsource
    have hspecifiers := isSound_append_right hclause.sound (" from '".toList ++ (package ++ "';".toList))
    rw [← htext] at hspecifiers
    have hwhole := fits_between [] (importText clause package) []
    rw [List.append_nil, List.nil_append, Text.byteSize_nil, Nat.zero_add] at hwhole
    rw [importNode, isSound_mk, isSound_append, hwhole, hspecifiers, hsource]
    rfl

end SpaMigration.Syntax
