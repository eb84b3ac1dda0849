import SpaMigration.Syntax.Grammar.Declaration

/-!
# Statements

The typed language accepts a statement out of its place, such as a `return` outside functions; the plain
language rejects it.
-/
namespace SpaMigration.Syntax

open TokenReader

/-- An expression in parentheses, as loops and choices have it in front. -/
def parenthesizedHead (g : Grammar) (ctx : Context) : TokenReader Node := do
  expect .parenOpen
  let value ← g.innerAll ctx
  expect .parenClose
  return value

/-- A statement that stands where only one may stand, which is no declaration. -/
def singleStatement (g : Grammar) (ctx : Context) : TokenReader Node := do
  require (!(← atWord "const") && !(← atLetDeclaration))
  require (ctx.dialect.typed || (!(← atWord "function") && !(← atWord "class")))
  g.parse .statement ctx

/-- A choice between statements. -/
def ifStatement (g : Grammar) (ctx : Context) (start : Nat) : TokenReader Node := do
  advance
  let test ← parenthesizedHead g ctx
  let yes ← singleStatement g ctx
  let no ← if ← eatWord "else" then pure [← singleStatement g ctx] else pure []
  node start .statement (test :: yes :: no)

/-- A loop with its condition in front. -/
def whileStatement (g : Grammar) (ctx : Context) (start : Nat) : TokenReader Node := do
  advance
  let test ← parenthesizedHead g ctx
  let body ← singleStatement g ctx.loop
  node start .statement [test, body]

/-- A loop with its condition behind, which a traversal meets first. -/
def doStatement (g : Grammar) (ctx : Context) (start : Nat) : TokenReader Node := do
  advance
  let body ← singleStatement g ctx.loop
  expectWord "while"
  let test ← parenthesizedHead g ctx
  let _ ← eat .semicolon
  node start .statement [test, body]

/-- What a loop over values runs through, after its variable, when it is such a loop. -/
def iterated? (g : Grammar) (ctx : Context) : TokenReader (Option Node) := do
  if ← eatWord "of" then return some (← g.inner ctx)
  else if ← eatWord "in" then return some (← g.innerAll ctx)
  else return none

/-- The condition and the step of a loop, with the semicolons around the condition. -/
def loopSteps (g : Grammar) (ctx : Context) : TokenReader (List Node) := do
  expect .semicolon
  let test ← if ← atPunct .semicolon then pure [] else pure [← g.innerAll ctx]
  expect .semicolon
  let step ← if ← atPunct .parenClose then pure [] else pure [← g.innerAll ctx]
  return test ++ step

/-- What stands between the parentheses of a loop. -/
def loopHead (g : Grammar) (ctx : Context) : TokenReader (List Node) := do
  let headContext := { ctx.inside with allowIn := false }
  if ← atPunct .semicolon then loopSteps g ctx
  else
    let isDeclaration ← atVariables
    let first ← if isDeclaration then variableList g headContext true else g.parse .expression headContext
    let target? := if isDeclaration then some first else asLoopTarget? ctx first
    match target? with
    | some target =>
      match ← iterated? g ctx with
      | some values =>
        require (ctx.dialect.typed || !isDeclaration || target.parts.map (·.parts.length) == [1])
        return [target, values]
      | none => return first :: (← loopSteps g ctx)
    | none => return first :: (← loopSteps g ctx)

/-- A loop with a head. -/
def forStatement (g : Grammar) (ctx : Context) (start : Nat) : TokenReader Node := do
  advance
  let _ ← eatWord "await"
  expect .parenOpen
  let head ← loopHead g ctx
  expect .parenClose
  let body ← singleStatement g ctx.loop
  node start .statement (head ++ [body])

/-- One case of a switch with its statements, and whether it is the default. -/
def switchCase (g : Grammar) (ctx : Context) : TokenReader (Bool × List Node) := do
  let isDefault ← eatWord "default"
  let test ← if isDefault then pure [] else do
    expectWord "case"
    pure [← g.innerAll ctx]
  expect .colon
  let statements ← collect (do
    if (← atPunct .braceClose) || (← atWord "case") || (← atWord "default") then return none
    else return some (← g.parse .statement ctx)) g.fuel
  return (isDefault, test ++ statements)

/-- A choice between cases. The plain language has at most one default. -/
def switchStatement (g : Grammar) (ctx : Context) (start : Nat) : TokenReader Node := do
  advance
  let value ← parenthesizedHead g ctx
  expect .braceOpen
  let cases ← collect (do
    if ← atPunct .braceClose then return none
    else return some (← switchCase g { ctx.inside with canBreak := true })) g.fuel
  expect .braceClose
  require (ctx.dialect.typed || cases.countP (·.1) ≤ 1)
  node start .statement (value :: cases.flatMap (·.2))

/-- The handler of a failed block: what is caught, and a block. -/
def catchClause (g : Grammar) (ctx : Context) : TokenReader (List Node) := do
  let caught ← if ← eat .parenOpen then do
      let pattern ← typedBinding g ctx (← g.parse .binding ctx.inside)
      expect .parenClose
      pure [pattern]
    else pure []
  let body ← block g ctx
  return caught ++ [body]

/-- A block that may fail, which the plain language wants handled or followed up. -/
def tryStatement (g : Grammar) (ctx : Context) (start : Nat) : TokenReader Node := do
  advance
  let body ← block g ctx
  let handler ← if ← eatWord "catch" then catchClause g ctx else pure []
  let followUp ← if ← eatWord "finally" then pure [← block g ctx] else pure []
  require (ctx.dialect.typed || !handler.isEmpty || !followUp.isEmpty)
  node start .statement (body :: handler ++ followUp)

/-- The statement ends before the next token. -/
def atStatementEnd : TokenReader Bool := do
  return (← atPunct .semicolon) || (← atPunct .braceClose) || (← token) == .endOfText || (← newlineBefore)

/-- The end of a function with its result. -/
def returnStatement (g : Grammar) (ctx : Context) (start : Nat) : TokenReader Node := do
  require (ctx.dialect.typed || ctx.inFunction)
  advance
  let value ← if ← atStatementEnd then pure [] else pure [← g.innerAll ctx]
  semicolon
  node start .statement value

/-- A failure with its reason, which starts on the same line. -/
def throwStatement (g : Grammar) (ctx : Context) (start : Nat) : TokenReader Node := do
  advance
  require (!(← newlineBefore))
  let value ← g.innerAll ctx
  semicolon
  node start .statement [value]

/-- A jump out of a loop or to its next round, possibly to a label. -/
def jumpStatement (ctx : Context) (start : Nat) (isContinue : Bool) : TokenReader Node := do
  advance
  if ← atStatementEnd then
    require (ctx.dialect.typed || (if isContinue then ctx.canContinue else ctx.canBreak))
  else
    let label ← anyName
    require (ctx.dialect.typed || ctx.labels.contains label)
  semicolon
  node start .statement []

/-- A statement over an object's members, which only the typed language lets pass. -/
def withStatement (g : Grammar) (ctx : Context) (start : Nat) : TokenReader Node := do
  require ctx.dialect.typed
  advance
  let value ← parenthesizedHead g ctx
  let body ← singleStatement g ctx
  node start .statement [value, body]

/-- A statement that starts with one of the words kept for statements, when one is next. -/
def keywordStatement? (g : Grammar) (ctx : Context) : TokenReader (Option Node) := do
  let start ← offset
  match ← token with
  | .word name false =>
    match name with
    | "if" => return some (← ifStatement g ctx start)
    | "while" => return some (← whileStatement g ctx start)
    | "do" => return some (← doStatement g ctx start)
    | "for" => return some (← forStatement g ctx start)
    | "switch" => return some (← switchStatement g ctx start)
    | "try" => return some (← tryStatement g ctx start)
    | "return" => return some (← returnStatement g ctx start)
    | "throw" => return some (← throwStatement g ctx start)
    | "break" => return some (← jumpStatement ctx start false)
    | "continue" => return some (← jumpStatement ctx start true)
    | "with" => return some (← withStatement g ctx start)
    | "debugger" =>
      advance
      semicolon
      return some (← node start .statement [])
    | _ => return none
  | _ => return none

/-- A statement with a label, when one is next. -/
def labelledStatement? (g : Grammar) (ctx : Context) : TokenReader (Option Node) := do
  let start ← offset
  match ← token with
  | .word name _ =>
    if isReference ctx name && (← peek).1 == .punct .colon then
      require (ctx.dialect.typed || !ctx.labels.contains name)
      advance
      advance
      let body ← singleStatement g { ctx with labels := name :: ctx.labels }
      return some (← node start .statement [body])
    else return none
  | _ => return none

/-- An expression as a statement. -/
def expressionStatement (g : Grammar) (ctx : Context) : TokenReader Node := do
  let start ← offset
  let value ← g.parse .expression ctx.inside
  semicolon
  node start .statement [value]

/-- A statement, as `Goal.statement` asks for. -/
def statement (g : Grammar) (ctx : Context) : TokenReader Node := do
  let start ← offset
  if ← eat .semicolon then node start .statement []
  else if ← atPunct .braceOpen then block g ctx
  else if ctx.dialect.typed && (← atPunct .at) then
    let marks ← decorators g ctx
    decoratedClass g ctx start marks
  else
    match ← keywordStatement? g ctx with
    | some found => return found
    | none =>
      match ← ambientDeclaration? g ctx with
      | some found => return found
      | none =>
        match ← declaration? g ctx with
        | some found => return found
        | none =>
          match ← labelledStatement? g ctx with
          | some found => return found
          | none => expressionStatement g ctx

end SpaMigration.Syntax
