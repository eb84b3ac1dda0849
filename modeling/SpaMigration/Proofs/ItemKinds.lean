import SpaMigration.Proofs.ItemReading

/-!
# Kinds of items

What a parser yields is decided by the last parser that it runs. Only the parser of imports makes import
declarations, so an item that is one starts where its first token does.
-/
namespace SpaMigration.Syntax

open TokenReader

variable {α β : Type} {Q : α → Prop} {R : β → Prop}

/-- Whatever the parser finds has the property. -/
def Yields (Q : α → Prop) (p : TokenReader α) : Prop := ∀ state a state', p.run state = some (a, state') → Q a

namespace Yields

lemma pure {a : α} (h : Q a) : Yields Q (Pure.pure a) := by
  intro state b state' hrun
  cases hrun
  exact h

lemma failure : Yields Q Alternative.failure := fun _ _ _ hrun => nomatch hrun

lemma bind {p : TokenReader β} {f : β → TokenReader α} (hp : Yields R p) (h : ∀ b, R b → Yields Q (f b)) :
    Yields Q (p >>= f) := by
  intro state a state' hrun
  rw [StateT.run_bind] at hrun
  obtain ⟨⟨b, middle⟩, hb, hf⟩ := Option.bind_eq_some_iff.mp hrun
  exact h b (hp _ _ _ hb) _ _ _ hf

/-- The last of several parsers decides. -/
lemma after {p : TokenReader β} {f : β → TokenReader α} (h : ∀ b, Yields Q (f b)) : Yields Q (p >>= f) := by
  have hany : Yields (fun _ : β => True) p := fun _ _ _ _ => trivial
  exact hany.bind fun b _ => h b

lemma attempt {p : TokenReader α} (h : Yields Q p) : Yields (fun found => ∀ a, found = some a → Q a) (attempt p) := by
  intro state found state' hrun a hfound
  subst hfound
  replace hrun : TokenReader.attempt p state = some (some a, state') := hrun
  rw [TokenReader.attempt] at hrun
  cases hp : p state with
  | none => simp [hp] at hrun
  | some result =>
    obtain ⟨b, middle⟩ := result
    simp only [hp, Option.some.injEq, Prod.mk.injEq] at hrun
    exact hrun.1 ▸ h state b middle hp

end Yields

/-- The node is no import declaration. -/
def IsOther (node : Node) : Prop := ∀ typeOnly, node.kind ≠ .importDeclaration typeOnly

/-- There is no import declaration. -/
def IsOther? (found : Option Node) : Prop := ∀ node, found = some node → IsOther node

lemma yields_mk {kind : Kind} {span : Span} {parts : List Node}
    (h : ∀ typeOnly, kind ≠ .importDeclaration typeOnly) : Yields IsOther (pure (.mk kind span parts)) :=
  Yields.pure h

lemma yields_none : Yields IsOther? (pure none) := Yields.pure fun _ h => nomatch h

lemma yields_found {p : TokenReader Node} (h : Yields IsOther p) :
    Yields IsOther? (p >>= fun node => pure (some node)) := by
  refine h.bind fun node hnode => Yields.pure fun found hfound => ?_
  rwa [← Option.some.inj hfound]

/-- A parser that is tried when another one has found nothing. -/
lemma yields_orElse {p : TokenReader (Option Node)} {q : TokenReader Node} (hp : Yields IsOther? p)
    (hq : Yields IsOther q) : Yields IsOther (do
      match ← p with
      | some found => return found
      | none => q) := by
  refine hp.bind fun found hfound => ?_
  cases found with
  | none => exact hq
  | some node => exact Yields.pure (hfound node rfl)

variable {g : Grammar} {ctx : Context} {start : Nat} {marks : List Node}

lemma yields_keywordStatement? : Yields IsOther? (keywordStatement? g ctx) := by
  unfold keywordStatement? ifStatement whileStatement doStatement forStatement switchStatement tryStatement
    returnStatement throwStatement jumpStatement withStatement
  repeat' first
    | with_reducible refine yields_found ?_
    | refine Yields.after fun _ => ?_
    | with_reducible exact yields_none
    | exact yields_mk (by simp)
    | split

lemma yields_classDeclaration : Yields IsOther (classDeclaration g ctx start marks) := by
  unfold classDeclaration
  repeat' first
    | refine Yields.after fun _ => ?_
    | exact Yields.failure
    | exact yields_mk (by simp)
    | split

lemma yields_typedDeclaration (found : TypedDeclaration) :
    Yields IsOther (typedDeclaration g ctx start marks found) := by
  unfold typedDeclaration typeAlias interfaceDeclaration enumDeclaration namespaceTail
  repeat' first
    | with_reducible exact yields_classDeclaration
    | refine Yields.after fun _ => ?_
    | exact yields_mk (by simp)
    | split

lemma yields_declaration? : Yields IsOther? (declaration? g ctx) := by
  unfold declaration? variableStatement functionDeclaration
  repeat' first
    | with_reducible refine yields_found ?_
    | with_reducible exact yields_typedDeclaration _
    | with_reducible exact yields_classDeclaration
    | refine Yields.after fun _ => ?_
    | with_reducible exact yields_none
    | exact yields_mk (by simp)
    | split

lemma yields_ambientDeclaration? : Yields IsOther? (ambientDeclaration? g ctx) := by
  unfold ambientDeclaration?
  repeat' first
    | with_reducible exact yields_none
    | exact Yields.attempt (Yields.after fun _ => yields_orElse yields_declaration? Yields.failure)
    | refine Yields.after fun _ => ?_
    | split

lemma yields_decoratedClass : Yields IsOther (decoratedClass g ctx start marks) := by
  unfold decoratedClass
  repeat' first
    | with_reducible exact yields_classDeclaration
    | refine Yields.after fun _ => ?_
    | split

lemma yields_labelledStatement? : Yields IsOther? (labelledStatement? g ctx) := by
  unfold labelledStatement?
  repeat' first
    | with_reducible refine yields_found ?_
    | refine Yields.after fun _ => ?_
    | with_reducible exact yields_none
    | exact yields_mk (by simp)
    | split

lemma yields_expressionStatement : Yields IsOther (expressionStatement g ctx) := by
  unfold expressionStatement
  repeat' first
    | refine Yields.after fun _ => ?_
    | exact yields_mk (by simp)

/-- A statement is no import declaration. -/
lemma yields_statement : Yields IsOther (statement g ctx) := by
  unfold statement block
  repeat' first
    | with_reducible exact yields_decoratedClass
    | exact yields_orElse yields_keywordStatement? <| yields_orElse yields_ambientDeclaration? <|
        yields_orElse yields_declaration? <| yields_orElse yields_labelledStatement? yields_expressionStatement
    | refine Yields.after fun _ => ?_
    | exact yields_mk (by simp)
    | split

lemma yields_exportDefault : Yields IsOther (exportDefault g ctx start) := by
  unfold exportDefault
  repeat' first
    | refine Yields.after fun _ => ?_
    | exact yields_mk (by simp)
    | split

lemma yields_exportSource : Yields IsOther (exportSource g ctx start) := by
  unfold exportSource
  repeat' first
    | refine Yields.after fun _ => ?_
    | exact yields_mk (by simp)

lemma yields_importAlias? : Yields IsOther? (importAlias? g ctx start) := by
  unfold importAlias?
  repeat' first
    | with_reducible refine yields_found ?_
    | refine Yields.after fun _ => ?_
    | with_reducible exact yields_none
    | exact yields_mk (by simp)
    | split

lemma yields_typedExport? : Yields IsOther? (typedExport? g ctx start) := by
  unfold typedExport?
  repeat' first
    | with_reducible exact yields_importAlias?
    | with_reducible refine yields_found ?_
    | refine Yields.after fun _ => ?_
    | with_reducible exact yields_none
    | exact yields_mk (by simp)
    | split

lemma yields_exportDefaultFrom? : Yields IsOther? (exportDefaultFrom? g ctx start) := by
  unfold exportDefaultFrom?
  repeat' first
    | with_reducible refine yields_found ?_
    | with_reducible exact yields_exportSource
    | refine Yields.after fun _ => ?_
    | with_reducible exact yields_none
    | split

lemma yields_exportedDeclaration : Yields IsOther (exportedDeclaration g ctx start marks) := by
  unfold exportedDeclaration
  repeat' first
    | exact Yields.failure
    | refine Yields.after fun _ => ?_
    | exact yields_mk (by simp)
    | split
    | dsimp only

/-- An export is no import declaration. -/
lemma yields_exportDeclaration : Yields IsOther (exportDeclaration g ctx start marks) := by
  unfold exportDeclaration exportAll exportNames
  repeat' first
    | with_reducible exact yields_exportDefault
    | with_reducible exact yields_exportedDeclaration
    | with_reducible exact yields_exportSource
    | exact Yields.failure
    | refine yields_orElse yields_exportDefaultFrom? (yields_orElse yields_typedExport? ?_)
    | refine Yields.after fun _ => ?_
    | exact yields_mk (by simp)
    | split

/-- Every import declaration starts where it is told to. -/
lemma yields_importDeclaration :
    Yields (fun node => IsOther node ∨ node.span.lo = start) (importDeclaration g ctx start) := by
  unfold importDeclaration
  repeat' first
    | with_reducible refine yields_importAlias?.bind fun found hfound => ?_
    | refine Yields.after fun _ => ?_
    | exact Yields.pure (.inr rfl)
    | exact Yields.pure (.inl (hfound _ rfl))
    | split

/-- An item that is an import declaration starts where its first token does. -/
lemma lo_of_moduleItem (hg : ∀ ctx, Yields IsOther (g.parse .statement ctx)) {state state' : ReaderState}
    {node : Node} (h : (moduleItem g ctx).run state = some (node, state')) :
    IsOther node ∨ node.span.lo = state.span.lo := by
  unfold moduleItem at h
  rw [StateT.run_bind] at h
  obtain ⟨⟨start, middle⟩, hoffset, h⟩ := Option.bind_eq_some_iff.mp h
  cases hoffset
  have hleft : ∀ {p : TokenReader Node}, Yields IsOther p →
      Yields (fun node => IsOther node ∨ node.span.lo = state.span.lo) p :=
    fun hp s a s' hrun => .inl (hp s a s' hrun)
  refine (?_ : Yields (fun node => IsOther node ∨ node.span.lo = state.span.lo) _) _ _ _ h
  repeat' first
    | with_reducible exact yields_importDeclaration
    | with_reducible exact hleft (hg ctx)
    | with_reducible exact hleft yields_exportDeclaration
    | with_reducible exact hleft yields_decoratedClass
    | refine Yields.after fun _ => ?_
    | split

/-- Every goal for a statement yields no import declaration, to whatever depth the grammar is unrolled. -/
lemma yields_parseAt_statement (fuel : Nat) (ctx : Context) : Yields IsOther (parseAt fuel .statement ctx) := by
  cases fuel with
  | zero => exact Yields.failure
  | succ fuel => exact yields_statement

lemma lo_after {text : List Char} (hgap : afterGap? text = some text) (offset : Nat) :
    (ReaderState.after (text, offset)).span.lo = offset := by
  rw [← List.nil_append text] at hgap ⊢
  obtain ⟨newline, hskip⟩ := skipGap_of_afterGap? hgap offset false
  simp only [ReaderState.after, hskip, Text.byteSize_nil, Nat.add_zero]

/-- An import declaration starts with the text that it is read from. -/
theorem lo_of_item? {dialect : Dialect} {text : List Char} {item : Node} {count : Nat}
    (hgap : afterGap? text = some text) (h : item? dialect text = some (item, count)) :
    IsOther item ∨ item.span.lo = 0 := by
  obtain ⟨⟨found, state⟩, hrun, hitem⟩ := Option.bind_eq_some_iff.mp h
  cases hitem
  obtain ⟨fuel, hfuel⟩ : ∃ fuel, depthFor text = fuel + 1 :=
    Nat.exists_eq_add_one.mpr (by unfold depthFor; omega)
  rw [hfuel] at hrun
  have hlo := lo_of_moduleItem (g := ⟨fuel, parseAt fuel⟩) (yields_parseAt_statement fuel) hrun
  rwa [lo_after hgap] at hlo

end SpaMigration.Syntax
