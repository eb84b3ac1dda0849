import SpaMigration.Syntax.Grammar.Function

/-!
# Literals

Regular expressions, templates, arrays and objects, and the patterns that arrays and objects are turned
into when a value is assigned to them.
-/
namespace SpaMigration.Syntax

open TokenReader
open Token (Place)

/-- The place behind the closing slash of a regular expression. A slash between brackets does not close
it, and it ends on its line. -/
def skipRegex : Bool → List Char → Nat → Option Place
  | _, [], _ => none
  | inBrackets, '\\' :: c :: rest, offset =>
    if Text.isLineTerminator c then none else skipRegex inBrackets rest (offset + 1 + c.utf8Size)
  | inBrackets, c :: rest, offset =>
    if Text.isLineTerminator c then none
    else if c == '/' && !inBrackets then some (rest, offset + 1)
    else if c == '[' then skipRegex true rest (offset + 1)
    else if c == ']' then skipRegex false rest (offset + 1)
    else skipRegex inBrackets rest (offset + c.utf8Size)

/-- Flags of a regular expression: each of the known letters at most once. -/
def areRegexFlags : List Char → Bool
  | [] => true
  | c :: rest => "dgimsuvy".toList.contains c && !rest.contains c && areRegexFlags rest

/-- A regular expression, whose opening slash is next. -/
def regex (ctx : Context) : TokenReader Node := do
  let start ← offset
  match (← get).here with
  | ('/' :: rest, place) =>
    match skipRegex false rest (place + 1) with
    | some (rest, place) =>
      let flags := rest.takeWhile Text.isIdentifierPart
      require (ctx.dialect.typed || areRegexFlags flags)
      goTo (rest.drop flags.length, place + Text.byteSize flags)
      node start .literal []
    | none => failure
  | _ => failure

/-- A template; `tag` is what it is applied to, if anything. -/
def template (g : Grammar) (ctx : Context) (start : Nat) (tag : List Node) : TokenReader Node := do
  let parts ← templateParts g (g.innerAll ctx)
  node start .template (tag ++ parts)

/-- One item of an array; an item may be left out. -/
def arrayItem (g : Grammar) (ctx : Context) : TokenReader (List Node) := do
  if ← atPunct .comma then return []
  else
    let start ← offset
    if ← eat .ellipsis then
      let value ← g.inner ctx
      return [← node start .spread [value]]
    else return [← g.inner ctx]

/-- An array, whose opening bracket is next. -/
def arrayLiteral (g : Grammar) (ctx : Context) : TokenReader Node := do
  let start ← offset
  expect .bracketOpen
  let items ← commaList g.fuel .bracketClose (arrayItem g ctx)
  node start .array items.flatten

/-- One of some words in front of a property; something that can be named follows. -/
def propertyWord (words : List String) : TokenReader (Option String) := do
  match ← token with
  | .word name false =>
    if words.contains name then
      match (← peek).1 with
      | .word _ _ | .string | .number | .punct .bracketOpen =>
        advance
        return some name
      | .punct .star =>
        if name == "async" then
          advance
          return some name
        else return none
      | _ => return none
    else return none
  | _ => return none

/-- The word `async` in front of a method. -/
def asyncMark : TokenReader Bool := do
  let marked ← attempt do
    require (← propertyWord ["async"]).isSome
    require (!(← newlineBefore))
  return marked.isSome

/-- A property without a value of its own. -/
def shorthand (g : Grammar) (ctx : Context) (start : Nat) (name : String) : TokenReader Node := do
  require (isReference ctx name)
  if ← eat .assign then
    let value ← g.inner ctx
    node start (.defaultProperty name) [value]
  else node start (.shorthandProperty name) []

/-- One property of an object. -/
def objectItem (g : Grammar) (ctx : Context) : TokenReader Node := do
  let start ← offset
  if ← eat .ellipsis then
    let value ← g.inner ctx
    node start .spread [value]
  else
    let isAsync ← asyncMark
    let isGenerator ← eat .star
    let word ← if isAsync || isGenerator then pure none else propertyWord ["get", "set"]
    let accessor := word.bind Accessor.ofWord?
    let key ← propertyKey g ctx
    if (← atPunct .parenOpen) || (ctx.dialect.typed && (← atPunct .less)) then
      let tail ← methodTail g ctx isAsync isGenerator false accessor
      node start (if accessor.isSome then .accessorProperty else .methodProperty) (key :: tail.parts [])
    else
      require (!isAsync && !isGenerator && accessor.isNone)
      if ← eat .colon then
        let value ← g.inner ctx
        node start .property [key, value]
      else
        match key.kind with
        | .nameKey name => shorthand g ctx start name
        | _ => failure

/-- An object, whose opening brace is next. -/
def objectLiteral (g : Grammar) (ctx : Context) : TokenReader Node := do
  let start ← offset
  expect .braceOpen
  let items ← commaList g.fuel .braceClose (objectItem g ctx.inside)
  node start .object items

/-- The plain language gives these names no other value. -/
def isAssignable (ctx : Context) (name : String) : Bool :=
  ctx.dialect.typed || (name != "eval" && name != "arguments")

/-- A target that takes a value as a whole: a name or a part. The typed language also takes what may be
missing, values with types attached, and anything in parentheses. -/
def isSimpleTarget (ctx : Context) : Node → Bool
  | .mk kind _ parts =>
    match kind, parts with
    | .identifier name, _ => isAssignable ctx name
    | .member, _ => true
    | .optionalMember, _ | .optionalCall, _ | .cast, _ => ctx.dialect.typed
    | .parenthesized, [inner] => ctx.dialect.typed || isSimpleTarget ctx inner
    | _, _ => false

mutual

/-- The expression as a part of a pattern, possibly with its default value. The typed language takes
everything but methods. -/
def asElement? (ctx : Context) : Node → Option Node
  | .mk kind span parts =>
    match kind, parts with
    | .identifier name, _ =>
      if isAssignable ctx name then some (.mk (.namePattern name) span parts) else none
    | .member, _ => some (.mk kind span parts)
    | .spread, [inner] => (asElement? ctx inner).map fun inner => .mk .restPattern span [inner]
    | .array, items => (asElements? ctx items).map (.mk .arrayPattern span ·)
    | .object, items => (asElements? ctx items).map (.mk .objectPattern span ·)
    | .property, [key, value] =>
      (asElement? ctx value).map fun value => .mk .propertyPattern span [key, value]
    | .shorthandProperty name, _ | .defaultProperty name, _ =>
      if isAssignable ctx name then some (.mk (.shorthandPattern name) span parts) else none
    | .assignment, [target, value] => some (.mk .defaultPattern span [target, value])
    | .parenthesized, [inner] =>
      if ctx.dialect.typed || isSimpleTarget ctx inner then some (.mk kind span parts) else none
    | .methodProperty, _ | .accessorProperty, _ => none
    | _, _ => if ctx.dialect.typed then some (.mk kind span parts) else none

/-- Each expression as a part of a pattern. -/
def asElements? (ctx : Context) : List Node → Option (List Node)
  | [] => some []
  | item :: rest => do
    let item ← asElement? ctx item
    let rest ← asElements? ctx rest
    return item :: rest

end

/-- The expression as a target of an assignment: one that takes the value as a whole, or the pattern that
an array or an object stands for. -/
def asTarget? (ctx : Context) (target : Node) : Option Node :=
  match target.kind with
  | .array | .object => asElement? ctx target
  | _ => if isSimpleTarget ctx target then asElement? ctx target else none

/-- The expression as what a loop gives its values to, in the typed language whatever it is. -/
def asLoopTarget? (ctx : Context) (target : Node) : Option Node :=
  if ctx.dialect.typed then asElement? ctx target else asTarget? ctx target

end SpaMigration.Syntax
