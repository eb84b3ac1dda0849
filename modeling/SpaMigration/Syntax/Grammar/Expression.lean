import SpaMigration.Syntax.Grammar.Literal
import SpaMigration.Syntax.Grammar.Markup

/-!
# Expressions

From names and calls up to assignments and arrow functions. Operators between operands are not told apart
by precedence: they form one node over all operands, in the order in which a traversal meets these.
-/
namespace SpaMigration.Syntax

open TokenReader

/-- Expressions with commas between them, as `Goal.expression` asks for. -/
def sequence (g : Grammar) (ctx : Context) : TokenReader Node := do
  let start ← offset
  let first ← g.parse .assignment ctx
  let more ← collect (do
    if ← eat .comma then return some (← g.parse .assignment ctx) else return none) g.fuel
  if more.isEmpty then return first else node start .sequence (first :: more)

/-- Access to a module at run time: a call, or what is known about the module itself. -/
def importAccess : TokenReader Node := do
  let start ← offset
  expectWord "import"
  if ← eat .dot then expectWord "meta"
  else require (← atPunct .parenOpen)
  node start .literal []

/-- The methods of the class that is extended. -/
def superAccess (ctx : Context) : TokenReader Node := do
  let start ← offset
  expectWord "super"
  let accessed := (← atPunct .dot) || (← atPunct .bracketOpen)
  require ((← atPunct .parenOpen) || (accessed && (ctx.dialect.typed || ctx.inMember)))
  node start .literal []

/-- An expression that starts with a word. -/
def wordExpression (g : Grammar) (ctx : Context) (name : String) (escaped : Bool) : TokenReader Node := do
  let start ← offset
  if escaped then
    require (isReference ctx name)
    advance
    node start (.identifier name) []
  else if name == "function" then functionExpression g ctx start false
  else if name == "class" then classExpression g ctx start []
  else if name == "import" then importAccess
  else if name == "super" then superAccess ctx
  else if name == "async" && (← peek) == (.word "function" false, false) then
    advance
    functionExpression g ctx start true
  else if ["this", "null", "true", "false"].contains name then
    advance
    node start .literal []
  else
    require (isReference ctx name)
    advance
    node start (.identifier name) []

/-- An expression without operators, calls or members. -/
def primary (g : Grammar) (ctx : Context) : TokenReader Node := do
  let start ← offset
  match ← token with
  | .word name escaped => wordExpression g ctx name escaped
  | .string => stringNode
  | .number =>
    advance
    node start .literal []
  | .privateName =>
    advance
    require (← atWord "in")
    node start .literal []
  | .punct .backtick => template g ctx start []
  | .punct .bracketOpen => arrayLiteral g ctx
  | .punct .braceOpen => objectLiteral g ctx
  | .punct .parenOpen =>
    advance
    let value ← g.innerAll ctx
    expect .parenClose
    node start .parenthesized [value]
  | .punct .at =>
    let marks ← decorators g ctx
    require (!marks.isEmpty)
    classExpression g ctx start marks
  | .punct .slash | .punct .update => regex ctx
  | _ => failure

/-- The name or the key of a part, after the dot. -/
def partName : TokenReader Node := do
  let start ← offset
  match ← token with
  | .word name _ =>
    advance
    node start (.nameKey name) []
  | .privateName =>
    advance
    node start .literal []
  | _ => failure

/-- The key of a part in brackets. -/
def partIndex (g : Grammar) (ctx : Context) : TokenReader Node := do
  let start ← offset
  expect .bracketOpen
  let key ← g.innerAll ctx
  expect .bracketClose
  node start .computedKey [key]

/-- What follows the mark of an access that may find nothing. -/
def optionalAccess (g : Grammar) (ctx : Context) (start : Nat) (base : Node) : TokenReader Node := do
  if ← atPunct .parenOpen then
    let args ← callArguments g ctx
    node start .optionalCall (base :: args)
  else if ctx.dialect.typed && (← atAngle) then
    let types ← typeArguments g ctx
    let args ← callArguments g ctx
    node start .optionalCall (base :: args ++ types)
  else if ← atPunct .bracketOpen then
    let index ← partIndex g ctx
    node start .optionalMember [base, index]
  else
    let key ← partName
    node start .optionalMember [base, key]

/-- A token that is an operator between operands. -/
def isOperator (ctx : Context) : Token → Bool
  | .punct p =>
    [Punct.less, .greater, .plus, .minus, .star, .slash, .power, .bar, .ampersand, .logical, .nullish,
     .operator].contains p
  | .word "instanceof" false => true
  | .word "in" false => ctx.allowIn
  | _ => false

/-- Reserved words that an expression may start with. -/
def expressionWords : List String :=
  ["this", "super", "null", "true", "false", "function", "class", "new", "delete", "typeof", "void", "await",
   "import"]

/-- A token that an expression may start with. -/
def startsExpression : Token → Bool
  | .word name escaped => escaped || !reservedWords.contains name || expressionWords.contains name
  | .string | .number | .privateName => true
  | .punct p => [Punct.parenOpen, .bracketOpen, .braceOpen, .backtick, .bang, .tilde, .step, .at].contains p
  | _ => false

/-- Type arguments without a call end before a token that cannot go on with them. -/
def endsTypeArguments (ctx : Context) (onNewLine : Bool) : Token → Bool
  | .punct .less | .punct .greater | .punct .plus | .punct .minus => false
  | .word "as" false | .word "satisfies" false => true
  | next => onNewLine || isOperator ctx next || !startsExpression next

/-- What type arguments were given for: a call, a template, or nothing yet. -/
def afterTypes (g : Grammar) (ctx : Context) (start : Nat) (allowCalls : Bool) (base : Node) :
    TokenReader Node := do
  let types ← typeArguments g ctx
  if allowCalls && (← atPunct .parenOpen) then
    let args ← callArguments g ctx
    node start .call (base :: args ++ types)
  else if ← atPunct .backtick then template g ctx start (base :: types)
  else
    require allowCalls
    require (endsTypeArguments ctx (← newlineBefore) (← token))
    node start .cast (base :: types)

/-- The access continues one that may find nothing. -/
def isOptional (base : Node) : Bool := base.kind == .optionalMember || base.kind == .optionalCall

/-- Parts, calls and templates that follow an expression, as long as there are any. In the plain language
no template follows an access that may find nothing. -/
def accesses (g : Grammar) (ctx : Context) (start : Nat) (allowCalls : Bool) :
    Nat → Node → TokenReader Node
  | 0, _ => failure
  | fuel + 1, base => do
    let goOn : Node → TokenReader Node := accesses g ctx start allowCalls fuel
    let access := if isOptional base then Kind.optionalMember else .member
    match ← token with
    | .punct .dot =>
      advance
      let key ← partName
      goOn (← node start access [base, key])
    | .punct .bracketOpen =>
      let index ← partIndex g ctx
      goOn (← node start access [base, index])
    | .punct .questionDot =>
      require allowCalls
      advance
      goOn (← optionalAccess g ctx start base)
    | .punct .bang =>
      if ctx.dialect.typed && !(← newlineBefore) then
        advance
        goOn (← node start .cast [base])
      else return base
    | .punct .parenOpen =>
      if allowCalls then
        let args ← callArguments g ctx
        goOn (← node start (if isOptional base then .optionalCall else .call) (base :: args))
      else return base
    | .punct .backtick =>
      require (ctx.dialect.typed || !isOptional base)
      goOn (← template g ctx start [base])
    | _ =>
      if ctx.dialect.typed && (← atAngle) then
        match ← attempt (afterTypes g ctx start allowCalls base) with
        | some next => goOn next
        | none => return base
      else return base

/-- A construction, as `Goal.construction` asks for. -/
def construction (g : Grammar) (ctx : Context) : TokenReader Node := do
  let start ← offset
  expectWord "new"
  if ← eat .dot then
    expectWord "target"
    require (ctx.dialect.typed || ctx.inConstructible)
    node start .literal []
  else
    let calleeStart ← offset
    let named := (← atWord "super") || (← atWord "import")
    require (!(named && (← peek).1 == .punct .parenOpen))
    let root ← if ← atWord "new" then g.parse .construction ctx else primary g ctx
    let callee ← accesses g ctx calleeStart false g.fuel root
    let types ← if ctx.dialect.typed && (← atAngle) then
        (·.getD []) <$> attempt (typeArguments g ctx)
      else pure []
    let args ← if ← atPunct .parenOpen then callArguments g ctx else pure []
    node start .construction (callee :: args ++ types)

/-- An expression of names, calls and members, as `Goal.leftHandSide` asks for. Nothing is called on
markup, and no markup follows it directly. -/
def leftHandSide (g : Grammar) (ctx : Context) : TokenReader Node := do
  let start ← offset
  if ctx.dialect.markup && (← atAngle) then
    let element ← g.parse .markup ctx
    require (!(← atAngle))
    return element
  else
    let root ← if ← atWord "new" then g.parse .construction ctx else primary g ctx
    accesses g ctx start true g.fuel root

/-- An operator in front of an operand. -/
inductive PrefixOperator where
  | step
  | delete
  /-- A type in angle brackets. -/
  | assertion (type : Node)
  | other

/-- The operator steps its operand. -/
def PrefixOperator.isStep : PrefixOperator → Bool
  | .step => true
  | _ => false

/-- The type in angle brackets that a value is taken to have. -/
def assertedType (g : Grammar) (ctx : Context) : TokenReader Node := do
  let start ← offset
  openAngle
  let type ← if ← eatWord "const" then typeNode start [] else g.type ctx
  closeAngle
  return type

/-- The operator in front of an operand, when there is one. -/
def prefixOperator (g : Grammar) (ctx : Context) : TokenReader (Option PrefixOperator) := do
  match ← token with
  | .punct .bang | .punct .tilde | .punct .plus | .punct .minus =>
    advance
    return some .other
  | .punct .step =>
    advance
    return some .step
  | .word "delete" false =>
    advance
    return some .delete
  | .word "typeof" false | .word "void" false =>
    advance
    return some .other
  | .word "await" false =>
    require (ctx.dialect.typed || ctx.inAsync || !ctx.inFunction)
    advance
    return some .other
  | _ =>
    if ctx.dialect.typed && !ctx.dialect.markup && (← atAngle) then
      return some (.assertion (← assertedType g ctx))
    else return none

/-- The plain language steps only targets and does not delete names. -/
def mayApply (ctx : Context) (operand : Node) : PrefixOperator → Bool
  | .step => ctx.dialect.typed || isSimpleTarget ctx operand
  | .delete =>
    ctx.dialect.typed || match operand.kind with
      | .identifier _ => false
      | _ => true
  | _ => true

/-- An operand with the operators in front of and behind it, and whether one is in front that a power
cannot follow. -/
def unary (g : Grammar) (ctx : Context) : TokenReader (Node × Bool) := do
  let start ← offset
  let operators ← collect (prefixOperator g ctx) g.fuel
  let operand ← leftHandSide g ctx
  let operand ← if (← atPunct .step) && !(← newlineBefore) then
      require (ctx.dialect.typed || isSimpleTarget ctx operand)
      advance
      node operand.span.lo .operation [operand]
    else pure operand
  match operators.getLast? with
  | some operator =>
    require (mayApply ctx operand operator)
    require (ctx.dialect.typed || !operators.dropLast.any (·.isStep))
    let types := operators.filterMap fun
      | .assertion type => some type
      | _ => none
    let isCast := types.length == operators.length
    let blocksPower := !operators.all (·.isStep)
    return (← node start (if isCast then .cast else .operation) (operand :: types), blocksPower)
  | none => return (operand, false)

/-- What follows an operand: an operator and the next operand, or a type. -/
inductive Continuation where
  | operand (node : Node)
  | type (node : Node)

/-- Operators and operands behind an operand. `blocksPower` tells whether a power may follow it, and
`seen` which of the logical operators were met, which the plain language does not mix. -/
def continuations (g : Grammar) (ctx : Context) :
    Nat → Bool → List Punct → TokenReader (List Continuation)
  | 0, _, _ => failure
  | fuel + 1, blocksPower, seen => do
    let next ← token
    if isOperator ctx next then
      require (!(blocksPower && next == .punct .power))
      let seen := match next with
        | .punct .logical => .logical :: seen
        | .punct .nullish => .nullish :: seen
        | _ => seen
      require (ctx.dialect.typed || !(seen.contains .logical && seen.contains .nullish))
      advance
      let (operand, blocks) ← unary g ctx
      return .operand operand :: (← continuations g ctx fuel blocks seen)
    else if ctx.dialect.typed && (next == .word "as" false || next == .word "satisfies" false)
        && !(← newlineBefore) then
      advance
      let start ← offset
      let type ← if ← eatWord "const" then typeNode start [] else g.type ctx
      return .type type :: (← continuations g ctx fuel false seen)
    else return []

/-- Operands with operators between them. -/
def operation (g : Grammar) (ctx : Context) : TokenReader Node := do
  let start ← offset
  let (first, blocksPower) ← unary g ctx
  let more ← continuations g ctx g.fuel blocksPower []
  if more.isEmpty then return first
  else
    let isCast := more.all fun
      | .type _ => true
      | .operand _ => false
    let parts := more.map fun
      | .type part => part
      | .operand part => part
    node start (if isCast then .cast else .operation) (first :: parts)

/-- A choice between two expressions. -/
def conditional (g : Grammar) (ctx : Context) : TokenReader Node := do
  let start ← offset
  let test ← operation g ctx
  if ← eat .question then
    let yes ← g.parse .assignment { ctx with allowIn := true, allowArrowType := false }
    expect .colon
    let no ← g.parse .assignment ctx
    node start .conditional [test, yes, no]
  else return test

/-- What stands in front of the body of an arrow function. -/
structure ArrowHead where
  isAsync : Bool
  params : List Node
  types : List Node

/-- The parameters of an arrow function up to the arrow, which is on the same line. -/
def arrowParameters (g : Grammar) (ctx : Context) (isAsync : Bool) : TokenReader ArrowHead := do
  let generics ← typeParameters? g ctx
  let params ← if generics.isEmpty && !(← atPunct .parenOpen) then do
      let start ← offset
      let name ← bindingName ctx
      let pattern ← node start (.namePattern name) []
      pure [← node start .parameter [pattern]]
    else parameters g (ctx.arrowBody isAsync) false
  let result ← if ctx.allowArrowType then resultType? g ctx else pure []
  require (!(← newlineBefore))
  expect .arrow
  return ⟨isAsync, params, generics ++ result⟩

/-- The head of an arrow function, when one is next. -/
def arrowHead? (g : Grammar) (ctx : Context) : TokenReader (Option ArrowHead) := do
  let asyncHead? ← if ← atWord "async" then attempt (do
      advance
      require (!(← newlineBefore))
      arrowParameters g ctx true)
    else pure none
  match asyncHead? with
  | some head => return some head
  | none =>
    let possible ← match ← token with
      | .word _ _ => do pure ((← peek).1 == .punct .arrow)
      | .punct .parenOpen => pure true
      | .punct .less => pure ctx.dialect.typed
      | _ => pure false
    if possible then attempt (arrowParameters g ctx false) else return none

/-- An arrow function behind its head. -/
def arrowTail (g : Grammar) (ctx : Context) (start : Nat) (head : ArrowHead) : TokenReader Node := do
  let bodyContext := ctx.arrowBody head.isAsync
  let valueContext := { bodyContext with allowIn := ctx.allowIn, allowArrowType := ctx.allowArrowType }
  let body ← if ← atPunct .braceOpen then block g bodyContext else g.parse .assignment valueContext
  node start .arrow (head.params ++ body :: head.types)

/-- The word `yield` and what it hands out, if anything. -/
def yielding (g : Grammar) (ctx : Context) : TokenReader Node := do
  let start ← offset
  expectWord "yield"
  let ends := match ← token with
    | .punct p =>
      [Punct.parenClose, .bracketClose, .braceClose, .comma, .semicolon, .colon].contains p
    | .endOfText | .word "in" false => true
    | _ => false
  if ends || (← newlineBefore) then node start .operation []
  else
    let _ ← eat .star
    let value ← g.parse .assignment ctx
    node start .operation [value]

/-- One expression, as `Goal.assignment` asks for. The typed language takes any expression in parentheses
for parameters when an arrow follows. -/
def assignment (g : Grammar) (ctx : Context) : TokenReader Node := do
  let start ← offset
  if ctx.inGenerator && (← atWord "yield") then yielding g ctx
  else
    match ← arrowHead? g ctx with
    | some head => arrowTail g ctx start head
    | none =>
      let target ← conditional g ctx
      if ← atPunct .assign then
        match asTarget? ctx target with
        | some target =>
          advance
          let value ← g.parse .assignment ctx
          node start .assignment [target, value]
        | none => failure
      else if ← atPunct .update then
        require (isSimpleTarget ctx target)
        advance
        let value ← g.parse .assignment ctx
        node start .operation [target, value]
      else if ctx.dialect.typed && target.kind == .parenthesized && (← atPunct .arrow)
          && !(← newlineBefore) then
        advance
        let params ← target.parts.mapM fun part => node target.span.lo .parameter [part]
        arrowTail g ctx start ⟨false, params, []⟩
      else return target

end SpaMigration.Syntax
