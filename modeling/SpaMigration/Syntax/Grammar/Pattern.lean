import SpaMigration.Syntax.Grammar.Basic

/-!
# Patterns, parameters and arguments

The names and patterns that take values apart, the parameters of functions made of them, and the
arguments of calls.
-/
namespace SpaMigration.Syntax

open TokenReader

/-- The arguments of a call, each marked if it is spread. -/
def callArguments (g : Grammar) (ctx : Context) : TokenReader (List Node) := do
  expect .parenOpen
  commaList g.fuel .parenClose do
    let start ← offset
    let isSpread ← eat .ellipsis
    let value ← g.inner ctx
    node start (.argument isSpread) [value]

/-- What a decorator applies: a name with dots, or an expression in parentheses. -/
def decoratorTarget (g : Grammar) (ctx : Context) : TokenReader Node := do
  let start ← offset
  if ← eat .parenOpen then
    let value ← g.innerAll ctx
    expect .parenClose
    node start .parenthesized [value]
  else
    let name ← anyName
    require (isReference ctx name)
    let root ← node start (.identifier name) []
    let dots ← collect (do
      if ← eat .dot then
        let _ ← anyName
        return some ()
      else return none) g.fuel
    if dots.isEmpty then return root else node start .member [root]

/-- A decorator: what it applies, called if arguments follow. -/
def decorator (g : Grammar) (ctx : Context) : TokenReader Node := do
  let start ← offset
  expect .at
  let targetStart ← offset
  let target ← decoratorTarget g ctx
  if ← atPunct .parenOpen then
    let args ← callArguments g ctx
    let call ← node targetStart .call (target :: args)
    node start .decorator [call]
  else node start .decorator [target]

/-- The decorators in front of a class, a member or a parameter. -/
def decorators (g : Grammar) (ctx : Context) : TokenReader (List Node) := do
  if ctx.dialect.typed then
    collect (do if ← atPunct .at then return some (← decorator g ctx) else return none) g.fuel
  else return []

/-- A pattern with the value it takes by default, if one is given. -/
def withDefault (g : Grammar) (ctx : Context) (start : Nat) (pattern : Node) : TokenReader Node := do
  if ← eat .assign then
    let value ← g.inner ctx
    node start .defaultPattern [pattern, value]
  else return pattern

/-- A pattern and possibly its default value. -/
def bindingElement (g : Grammar) (ctx : Context) : TokenReader Node := do
  let start ← offset
  let pattern ← g.parse .binding ctx
  withDefault g ctx start pattern

/-- In the plain language nothing follows the rest of the values, not even a comma. -/
def endsRest (ctx : Context) : TokenReader Unit := do
  require (ctx.dialect.typed || !(← atPunct .comma))

/-- The rest of the values, after the dots. -/
def restElement (g : Grammar) (ctx : Context) : TokenReader Node := do
  let start ← offset
  expect .ellipsis
  let pattern ← g.parse .binding ctx
  endsRest ctx
  node start .restPattern [pattern]

/-- One element of an array pattern; an element may be left out. -/
def arrayPatternItem (g : Grammar) (ctx : Context) : TokenReader (List Node) := do
  if ← atPunct .comma then return []
  else if ← atPunct .ellipsis then return [← restElement g ctx]
  else return [← bindingElement g ctx]

/-- One property of an object pattern. -/
def objectPatternItem (g : Grammar) (ctx : Context) : TokenReader Node := do
  if ← atPunct .ellipsis then restElement g ctx
  else
    let start ← offset
    let key ← propertyKey g ctx
    if ← eat .colon then
      let value ← bindingElement g ctx
      node start .propertyPattern [key, value]
    else
      match key.kind with
      | .nameKey name =>
        require (isBindable ctx name)
        if ← eat .assign then
          let value ← g.inner ctx
          node start (.shorthandPattern name) [value]
        else node start (.shorthandPattern name) []
      | _ => failure

/-- A name or a pattern, as `Goal.binding` asks for. -/
def binding (g : Grammar) (ctx : Context) : TokenReader Node := do
  let start ← offset
  if ← eat .bracketOpen then
    let items ← commaList g.fuel .bracketClose (arrayPatternItem g ctx)
    node start .arrayPattern items.flatten
  else if ← eat .braceOpen then
    let items ← commaList g.fuel .braceClose (objectPatternItem g ctx)
    node start .objectPattern items
  else
    let name ← bindingName ctx
    node start (.namePattern name) []

/-- A pattern with the type that follows it among its parts. -/
def typedBinding (g : Grammar) (ctx : Context) (pattern : Node) : TokenReader Node := do
  let types ← typeAnnotation? g ctx
  if types.isEmpty then return pattern
  else node pattern.span.lo pattern.kind (pattern.parts ++ types)

/-- The words that turn a parameter of a constructor into a member. -/
def parameterModifiers : List String := ["public", "private", "protected", "readonly", "override"]

/-- A modifier of a parameter, when one is next. -/
def parameterModifier : TokenReader (Option Unit) := do
  match ← token, (← peek).1 with
  | .word name false, .word _ _ | .word name false, .punct .braceOpen
  | .word name false, .punct .bracketOpen =>
    if parameterModifiers.contains name then
      advance
      return some ()
    else return none
  | _, _ => return none

/-- One parameter. -/
def parameter (g : Grammar) (ctx : Context) (ofConstructor : Bool) : TokenReader Node := do
  let start ← offset
  let marks ← decorators g ctx
  if ofConstructor && ctx.dialect.typed then
    let _ ← collect parameterModifier g.fuel
  let patternStart ← offset
  if ← eat .ellipsis then
    let pattern ← typedBinding g ctx (← g.parse .binding ctx)
    endsRest ctx
    let rest ← node patternStart .restPattern [pattern]
    node start .parameter (marks ++ [rest])
  else
    let pattern ← g.parse .binding ctx
    if ctx.dialect.typed then
      let _ ← eat .question
    let pattern ← typedBinding g ctx pattern
    let pattern ← withDefault g ctx patternStart pattern
    node start .parameter (marks ++ [pattern])

/-- The parameters of a function in parentheses. -/
def parameters (g : Grammar) (ctx : Context) (ofConstructor : Bool) : TokenReader (List Node) := do
  expect .parenOpen
  commaList g.fuel .parenClose (parameter g ctx.inside ofConstructor)

end SpaMigration.Syntax
