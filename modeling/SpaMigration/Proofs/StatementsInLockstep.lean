import SpaMigration.Proofs.ExpressionsInLockstep

/-!
# Statements in lockstep

The parsers of declarations, statements, imports and exports go in lockstep, and with them the whole grammar.
-/
namespace SpaMigration.Syntax

open TokenReader

set_option synthInstance.maxSize 20000

variable {setting : Setting} {above : Above} {g : Grammar} {ctx : Context} [ctx.Fits setting]
  [hg : g.InLockstep setting]

/-! ## Declarations -/

omit [ctx.Fits setting] in
lemma Twins.mayLackValue_eq {node node' : Node} (h : Twins setting node node') (isConstant byLoop : Bool) :
    mayLackValue ctx isConstant byLoop node = mayLackValue ctx isConstant byLoop node' := by
  simp only [mayLackValue, h.kind_eq]

instance (isConstant inLoopHead : Bool) :
    Lockstep setting above (declarator g ctx isConstant inLoopHead) (declarator g ctx isConstant inLoopHead) := by
  unfold declarator
  dsimp only
  refine Lockstep.bind inferInstance fun start start' _ => Lockstep.bind inferInstance fun pattern pattern' _ => ?_
  refine Lockstep.ite (Lockstep.bindPlain inferInstance fun _ => Lockstep.bind inferInstance fun typed typed' htyped => ?_)
    (Lockstep.bind inferInstance fun typed typed' htyped => ?_)
  all_goals
    simp only [htyped.mayLackValue_eq]
    infer_instance

instance (inLoopHead : Bool) :
    Lockstep setting above (variableList g ctx inLoopHead) (variableList g ctx inLoopHead) := by
  unfold variableList
  infer_instance

instance : Lockstep setting above atLetDeclaration atLetDeclaration := by
  unfold atLetDeclaration
  refine Lockstep.bindPlain inferInstance fun _ => Lockstep.ite (Lockstep.bindPlain inferInstance fun next => ?_) inferInstance
  split <;> infer_instance

instance : Lockstep setting above atVariables atVariables := by
  unfold atVariables
  infer_instance

instance : Lockstep setting above (variableStatement g ctx) (variableStatement g ctx) := by
  unfold variableStatement
  infer_instance

instance {start start' : Nat} [Twins setting start start'] :
    Lockstep setting above (typeAlias g ctx start) (typeAlias g ctx start') := by
  unfold typeAlias
  infer_instance

instance {start start' : Nat} [Twins setting start start'] :
    Lockstep setting above (interfaceDeclaration g ctx start) (interfaceDeclaration g ctx start') := by
  unfold interfaceDeclaration
  infer_instance

instance : Lockstep setting above (enumMember g ctx) (enumMember g ctx) := by
  unfold enumMember
  infer_instance

instance {start start' : Nat} [Twins setting start start'] :
    Lockstep setting above (enumDeclaration g ctx start) (enumDeclaration g ctx start') := by
  unfold enumDeclaration
  infer_instance

instance : Lockstep setting above (namespaceBody g ctx) (namespaceBody g ctx) := by
  unfold namespaceBody
  infer_instance

instance {start start' : Nat} [Twins setting start start'] :
    Lockstep setting above (namespaceTail g ctx start) (namespaceTail g ctx start') := by
  unfold namespaceTail
  infer_instance

instance : Lockstep setting above (typedDeclaration? ctx) (typedDeclaration? ctx) := by
  unfold typedDeclaration?
  refine Lockstep.ite inferInstance (Lockstep.bindPlain inferInstance fun next => ?_)
  split
  · refine Lockstep.bindPlain inferInstance fun behind => ?_
    obtain ⟨after, newline⟩ := behind
    dsimp only
    split <;> infer_instance
  · infer_instance

instance {start start' : Nat} [Twins setting start start'] {marks marks' : List Node} [Twins setting marks marks']
    (found : TypedDeclaration) : Lockstep setting above (typedDeclaration g ctx start marks found)
      (typedDeclaration g ctx start' marks' found) := by
  cases found
  all_goals
    unfold typedDeclaration
    infer_instance

instance : Lockstep setting above atAsyncFunction atAsyncFunction := by
  unfold atAsyncFunction
  infer_instance

instance : Lockstep setting above (declaration? g ctx) (declaration? g ctx) := by
  unfold declaration?
  infer_instance

instance : Lockstep setting above (ambientDeclaration? g ctx) (ambientDeclaration? g ctx) := by
  unfold ambientDeclaration?
  infer_instance

instance {start start' : Nat} [Twins setting start start'] {marks marks' : List Node} [hmarks : Twins setting marks marks'] :
    Lockstep setting above (decoratedClass g ctx start marks) (decoratedClass g ctx start' marks') := by
  unfold decoratedClass
  refine Lockstep.bindPlain inferInstance fun found => ?_
  split <;> infer_instance

/-! ## Statements -/

/-- Twins have as many parts. -/
lemma Twins.map_length_parts_eq {nodes nodes' : List Node} (h : Twins setting nodes nodes') :
    nodes.map (·.parts.length) = nodes'.map (·.parts.length) := by
  obtain ⟨h⟩ := h
  induction h with
  | nil => rfl
  | cons hnode _ ih => rw [List.map_cons, List.map_cons, ih, (@Twins.parts _ _ _ ⟨hnode⟩).areTwins.length_eq]

instance : Lockstep setting above (parenthesizedHead g ctx) (parenthesizedHead g ctx) := by
  unfold parenthesizedHead
  infer_instance

instance : Lockstep setting above (singleStatement g ctx) (singleStatement g ctx) := by
  unfold singleStatement
  infer_instance

instance {start start' : Nat} [Twins setting start start'] :
    Lockstep setting above (ifStatement g ctx start) (ifStatement g ctx start') := by
  unfold ifStatement
  infer_instance

instance {start start' : Nat} [Twins setting start start'] :
    Lockstep setting above (whileStatement g ctx start) (whileStatement g ctx start') := by
  unfold whileStatement
  infer_instance

instance {start start' : Nat} [Twins setting start start'] :
    Lockstep setting above (doStatement g ctx start) (doStatement g ctx start') := by
  unfold doStatement
  infer_instance

instance : Lockstep setting above (iterated? g ctx) (iterated? g ctx) := by
  unfold iterated?
  infer_instance

instance : Lockstep setting above (loopSteps g ctx) (loopSteps g ctx) := by
  unfold loopSteps
  infer_instance

instance : Lockstep setting above (loopHead g ctx) (loopHead g ctx) := by
  unfold loopHead
  dsimp only
  refine Lockstep.bindPlain inferInstance fun _ => Lockstep.ite inferInstance ?_
  refine Lockstep.bindPlain inferInstance fun isDeclaration => ?_
  refine Lockstep.ite (Lockstep.bind inferInstance fun first first' _ => ?_)
    (Lockstep.bind inferInstance fun first first' _ => ?_)
  all_goals
    have htarget : Twins setting (if isDeclaration then some first else asLoopTarget? ctx first)
      (if isDeclaration then some first' else asLoopTarget? ctx first') := inferInstance
    generalize (if isDeclaration then some first else asLoopTarget? ctx first) = found at htarget
    generalize (if isDeclaration then some first' else asLoopTarget? ctx first') = found' at htarget
    cases htarget.areTwins with
    | none =>
      dsimp only
      infer_instance
    | @some target target' hvalue =>
      have htwins : Twins setting target target' := ⟨hvalue⟩
      have hparts : Twins setting target.parts target'.parts := inferInstance
      dsimp only
      rw [hparts.map_length_parts_eq]
      infer_instance

instance {start start' : Nat} [Twins setting start start'] :
    Lockstep setting above (forStatement g ctx start) (forStatement g ctx start') := by
  unfold forStatement
  infer_instance

instance : Lockstep setting above (switchCase g ctx) (switchCase g ctx) := by
  unfold switchCase
  infer_instance

instance {start start' : Nat} [Twins setting start start'] :
    Lockstep setting above (switchStatement g ctx start) (switchStatement g ctx start') := by
  unfold switchStatement
  refine Lockstep.bindPlain inferInstance fun _ => Lockstep.bind inferInstance fun value value' _ => ?_
  refine Lockstep.bindPlain inferInstance fun _ => Lockstep.bind inferInstance fun cases cases' hcases => ?_
  rw [hcases.countP_eq fun _ _ h => h.areTwins.1]
  have hstatements : Twins setting (cases.flatMap (·.2)) (cases'.flatMap (·.2)) :=
    hcases.flatMap fun _ _ h => ⟨h.areTwins.2⟩
  infer_instance

instance : Lockstep setting above (catchClause g ctx) (catchClause g ctx) := by
  unfold catchClause
  infer_instance

instance {start start' : Nat} [Twins setting start start'] :
    Lockstep setting above (tryStatement g ctx start) (tryStatement g ctx start') := by
  unfold tryStatement
  infer_instance

instance : Lockstep setting above atStatementEnd atStatementEnd := by
  unfold atStatementEnd
  infer_instance

instance {start start' : Nat} [Twins setting start start'] :
    Lockstep setting above (returnStatement g ctx start) (returnStatement g ctx start') := by
  unfold returnStatement
  infer_instance

instance {start start' : Nat} [Twins setting start start'] :
    Lockstep setting above (throwStatement g ctx start) (throwStatement g ctx start') := by
  unfold throwStatement
  infer_instance

instance {start start' : Nat} [Twins setting start start'] (isContinue : Bool) :
    Lockstep setting above (jumpStatement ctx start isContinue) (jumpStatement ctx start' isContinue) := by
  unfold jumpStatement
  infer_instance

instance {start start' : Nat} [Twins setting start start'] :
    Lockstep setting above (withStatement g ctx start) (withStatement g ctx start') := by
  unfold withStatement
  infer_instance

instance : Lockstep setting above (keywordStatement? g ctx) (keywordStatement? g ctx) := by
  unfold keywordStatement?
  refine Lockstep.bind inferInstance fun start start' _ => Lockstep.bindPlain inferInstance fun next => ?_
  repeat' first | infer_instance | split

instance : Lockstep setting above (labelledStatement? g ctx) (labelledStatement? g ctx) := by
  unfold labelledStatement?
  refine Lockstep.bind inferInstance fun start start' _ => Lockstep.bindPlain inferInstance fun next => ?_
  repeat' first | infer_instance | split

instance : Lockstep setting above (expressionStatement g ctx) (expressionStatement g ctx) := by
  unfold expressionStatement
  infer_instance

instance : Lockstep setting above (statement g ctx) (statement g ctx) := by
  unfold statement
  infer_instance

/-! ## Imports and exports -/

instance : Lockstep setting above fromSource fromSource := by
  unfold fromSource
  infer_instance

instance : Lockstep setting above (importAttributes g ctx) (importAttributes g ctx) := by
  unfold importAttributes
  refine Lockstep.bindPlain inferInstance fun _ => Lockstep.bindPlain inferInstance fun _ => ?_
  refine Lockstep.bindPlain inferInstance fun _ => Lockstep.ite (Lockstep.bindPlain inferInstance fun behind => ?_) inferInstance
  split <;> infer_instance

instance : Lockstep setting above moduleName moduleName := by
  unfold moduleName
  refine Lockstep.bindPlain inferInstance fun next => ?_
  repeat' first | infer_instance | split

instance : Lockstep setting above (typeMark ctx) (typeMark ctx) := by
  unfold typeMark
  refine Lockstep.bindPlain inferInstance fun _ => Lockstep.ite inferInstance ?_
  refine Lockstep.bindPlain (Lockstep.attempt ?_) fun _ => inferInstance
  refine Lockstep.bindPlain inferInstance fun _ => Lockstep.bindPlain inferInstance fun next => ?_
  repeat' first | infer_instance | split | refine Lockstep.bindPlain inferInstance fun behind => ?_

instance : Lockstep setting above (importSpecifier ctx) (importSpecifier ctx) := by
  unfold importSpecifier
  infer_instance

instance : Lockstep setting above (importNamespace ctx) (importNamespace ctx) := by
  unfold importNamespace
  infer_instance

instance : Lockstep setting above (importOthers g ctx) (importOthers g ctx) := by
  unfold importOthers
  infer_instance

instance : Lockstep setting above (importSpecifiers g ctx) (importSpecifiers g ctx) := by
  unfold importSpecifiers
  infer_instance

instance : Lockstep setting above (typeOnlyMark ctx) (typeOnlyMark ctx) := by
  unfold typeOnlyMark
  refine Lockstep.bindPlain inferInstance fun _ => Lockstep.ite inferInstance ?_
  refine Lockstep.bindPlain (Lockstep.attempt ?_) fun _ => inferInstance
  refine Lockstep.bindPlain inferInstance fun _ => Lockstep.bindPlain inferInstance fun next => ?_
  split <;> infer_instance

instance : Lockstep setting above (importAliasTail g ctx) (importAliasTail g ctx) := by
  unfold importAliasTail
  infer_instance

instance {start start' : Nat} [Twins setting start start'] :
    Lockstep setting above (importAlias? g ctx start) (importAlias? g ctx start') := by
  unfold importAlias?
  infer_instance

instance {start start' : Nat} [Twins setting start start'] :
    Lockstep setting above (importDeclaration g ctx start) (importDeclaration g ctx start') := by
  unfold importDeclaration
  infer_instance

instance {start start' : Nat} [Twins setting start start'] :
    Lockstep setting above (exportDefault g ctx start) (exportDefault g ctx start') := by
  unfold exportDefault
  refine Lockstep.bind inferInstance fun valueStart valueStart' _ => Lockstep.bindPlain inferInstance fun _ => ?_
  refine Lockstep.ite inferInstance (Lockstep.bindPlain inferInstance fun _ => Lockstep.ite inferInstance ?_)
  refine Lockstep.bindPlain inferInstance fun _ => Lockstep.bindPlain inferInstance fun _ => ?_
  dsimp only
  refine Lockstep.ite inferInstance (Lockstep.bindPlain inferInstance fun found => ?_)
  split <;> infer_instance

instance : Lockstep setting above (exportSpecifier ctx) (exportSpecifier ctx) := by
  unfold exportSpecifier
  infer_instance

instance {start start' : Nat} [Twins setting start start'] :
    Lockstep setting above (exportSource g ctx start) (exportSource g ctx start') := by
  unfold exportSource
  infer_instance

instance {start start' : Nat} [Twins setting start start'] :
    Lockstep setting above (exportAll g ctx start) (exportAll g ctx start') := by
  unfold exportAll
  infer_instance

instance {start start' : Nat} [Twins setting start start'] :
    Lockstep setting above (exportNames g ctx start) (exportNames g ctx start') := by
  unfold exportNames
  infer_instance

instance {start start' : Nat} [Twins setting start start'] :
    Lockstep setting above (typedExport? g ctx start) (typedExport? g ctx start') := by
  unfold typedExport?
  infer_instance

instance {start start' : Nat} [Twins setting start start'] :
    Lockstep setting above (exportDefaultFrom? g ctx start) (exportDefaultFrom? g ctx start') := by
  unfold exportDefaultFrom?
  infer_instance

instance {start start' : Nat} [Twins setting start start'] {marks marks' : List Node} [hmarks : Twins setting marks marks'] :
    Lockstep setting above (exportedDeclaration g ctx start marks) (exportedDeclaration g ctx start' marks') := by
  unfold exportedDeclaration
  infer_instance

instance {start start' : Nat} [Twins setting start start'] {marks marks' : List Node} [hmarks : Twins setting marks marks'] :
    Lockstep setting above (exportDeclaration g ctx start marks) (exportDeclaration g ctx start' marks') := by
  unfold exportDeclaration
  infer_instance

instance : Lockstep setting above (moduleItem g ctx) (moduleItem g ctx) := by
  unfold moduleItem
  refine Lockstep.bind inferInstance fun start start' _ => Lockstep.bindPlain inferInstance fun _ => ?_
  refine Lockstep.ite (Lockstep.bindPlain inferInstance fun behind => ?_) inferInstance
  split <;> infer_instance

/-! ## Programs -/

/-- However deep the grammar is unrolled, its parsers go in lockstep. -/
instance parseAt_inLockstep (fuel : Nat) : Grammar.InLockstep ⟨fuel, parseAt fuel⟩ setting where
  parse goal ctx _ _ above := by
    induction fuel generalizing goal ctx above with
    | zero => exact Lockstep.failure
    | succ fuel ih =>
      have : Grammar.InLockstep ⟨fuel, parseAt fuel⟩ setting := ⟨fun goal ctx hgoal hctx above => ih goal ctx hgoal hctx above⟩
      cases goal
      case markup => exact markup_inLockstep (Goal.Fits.markup rfl)
      all_goals
        simp only [parseAt]
        infer_instance

end SpaMigration.Syntax
