import SpaMigration.Syntax.Grammar.Type

/-!
# Markup

Elements and fragments. Text between tags and strings in attributes are not made of tokens, so they are
read from the place behind the last token.
-/
namespace SpaMigration.Syntax

open TokenReader
open Token (Place)

/-- The place behind the text in front of the next tag or brace. A closing brace or angle bracket does
not stand in text. -/
def skipMarkupText : List Char → Nat → Option Place
  | [], _ => none
  | c :: rest, offset =>
    if c == '<' || c == '\x7b' then some (c :: rest, offset)
    else if c == '>' || c == '\x7d' then none
    else skipMarkupText rest (offset + c.utf8Size)

/-- The place behind a string in an attribute, after its opening quote. Such a string has no escapes. -/
def skipAttributeString (quote : Char) : List Char → Nat → Option Place
  | [], _ => none
  | c :: rest, offset =>
    if c == quote then some (rest, offset + 1)
    else skipAttributeString quote rest (offset + c.utf8Size)

/-- A name in markup, which may hold hyphens. -/
def markupName : TokenReader String := do
  let (s, offset) := (← get).here
  require (s.head?.any Text.isIdentifierStart)
  let name := s.takeWhile fun c => c == '-' || Text.isIdentifierPart c
  goTo (s.drop name.length, offset + Text.byteSize name)
  return String.ofList name

/-- The name of an element with its pieces: a name, a name in a namespace, or a name with dots. -/
def elementName (g : Grammar) : TokenReader (Node × List String) := do
  let start ← offset
  let first ← markupName
  let root ← node start (.tagName first) []
  if ← eat .colon then
    let second ← markupName
    return (← node start .qualifiedTagName [], [first, ":", second])
  else
    let dots ← collect (do if ← eat .dot then return some (← markupName) else return none) g.fuel
    if dots.isEmpty then return (root, [first])
    else return (← node start .qualifiedTagName [], first :: dots)

/-- The value of an attribute: a string, an expression in braces, or an element. The typed language takes
empty braces. -/
def attributeValue (g : Grammar) (ctx : Context) : TokenReader Node := do
  let start ← offset
  match (← get).here with
  | (c :: rest, place) =>
    if c == '"' || c == '\'' then
      match skipAttributeString c rest (place + 1) with
      | some behind =>
        goTo behind
        node start .stringLiteral []
      | none => failure
    else if c == '\x7b' then
      advance
      if ← eat .braceClose then
        require ctx.dialect.typed
        node start .markupContainer []
      else
        let value ← g.innerAll ctx
        expect .braceClose
        node start .markupContainer [value]
    else
      require (c == '<')
      g.parse .markup ctx.inside
  | ([], _) => failure

/-- One attribute of a tag, or values spread over its attributes; nothing at the end of the tag. -/
def tagAttribute (g : Grammar) (ctx : Context) : TokenReader (Option Node) := do
  let start ← offset
  if ← eat .braceOpen then
    let dots ← offset
    expect .ellipsis
    let value ← g.inner ctx
    let found ← node dots .attributeSpread [value]
    expect .braceClose
    return some found
  else if (← get).here.1.head?.any Text.isIdentifierStart then
    let _ ← markupName
    if ← eat .colon then
      let _ ← markupName
    let name ← node start .attributeName []
    if ← eat .assign then
      let value ← attributeValue g ctx
      return some (← node start .tagAttribute [name, value])
    else return some (← node start .tagAttribute [name])
  else return none

/-- What braces among children hold: nothing, values that are spread, or an expression. -/
def markupContainer (g : Grammar) (ctx : Context) : TokenReader Node := do
  let start ← offset
  expect .braceOpen
  if ← eat .braceClose then node start .markupContainer []
  else
    let _ ← eat .ellipsis
    let value ← g.innerAll ctx
    expect .braceClose
    node start .markupContainer [value]

/-- The next child of an element: text, an expression in braces, or an element; nothing in front of a
closing tag. -/
def markupChild (g : Grammar) (ctx : Context) : TokenReader (Option Node) := do
  let start ← lastEnd
  let place := (← get).last
  match skipMarkupText place.1 place.2 with
  | some behind =>
    goTo behind
    if behind.2 != start then return some (← node start .markupText [])
    else if ← atPunct .braceOpen then return some (← markupContainer g ctx)
    else if ← wouldSucceed (do openAngle; expect .slash) then return none
    else return some (← g.parse .markup ctx.inside)
  | none => failure

/-- The children of an element up to its closing tag, of which `name` reads the name. -/
def markupChildren (g : Grammar) (ctx : Context) (name : TokenReader Unit) : TokenReader (List Node) := do
  let children ← collect (markupChild g ctx) g.fuel
  let start ← offset
  openAngle
  expect .slash
  name
  closeAngle
  return children ++ [← node start .closingTag []]

/-- An element or a fragment, as `Goal.markup` asks for. -/
def markup (g : Grammar) (ctx : Context) : TokenReader Node := do
  let start ← offset
  openAngle
  if ← atCloseAngle then
    closeAngle
    let children ← markupChildren g ctx (pure ())
    node start .fragment children
  else
    let (name, pieces) ← elementName g
    let types ← if ctx.dialect.typed && (← atAngle) then
        (·.getD []) <$> attempt (typeArguments g ctx)
      else pure []
    let attributes ← collect (tagAttribute g ctx) g.fuel
    let selfClosing ← eat .slash
    closeAngle
    let tag ← node start (.openingTag selfClosing) (name :: attributes ++ types)
    if selfClosing then node start .element [tag]
    else
      let children ← markupChildren g ctx do
        let (_, closing) ← elementName g
        require (closing == pieces)
      node start .element (tag :: children)

end SpaMigration.Syntax
