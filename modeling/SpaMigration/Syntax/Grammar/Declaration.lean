import SpaMigration.Syntax.Grammar.Literal

/-!
# Declarations

Variables, and the declarations that only the typed language has: aliases and interfaces, enumerations,
and namespaces. Functions and classes have a module of their own.
-/
namespace SpaMigration.Syntax

open TokenReader

/-- A variable may be without a value: a loop provides it, it is only declared, it is a name and no
constant, or a constant of the typed language. -/
def mayLackValue (ctx : Context) (isConstant byLoop : Bool) (pattern : Node) : Bool :=
  byLoop || ctx.ambient || if isConstant then ctx.dialect.typed else
    match pattern.kind with
    | .namePattern _ => true
    | _ => false

/-- One variable and the value it is bound to. -/
def declarator (g : Grammar) (ctx : Context) (isConstant inLoopHead : Bool) : TokenReader Node := do
  let start ← offset
  let pattern ← g.parse .binding ctx
  if ctx.dialect.typed then
    let _ ← eat .bang
  let pattern ← typedBinding g ctx pattern
  if ← eat .assign then
    let value ← g.parse .assignment ctx
    node start .declarator [pattern, value]
  else
    let byLoop ← if inLoopHead then do pure ((← atWord "of") || (← atWord "in")) else pure false
    require (mayLackValue ctx isConstant byLoop pattern)
    node start .declarator [pattern]

/-- Variables, from the word that declares them up to the end of the last one. -/
def variableList (g : Grammar) (ctx : Context) (inLoopHead : Bool) : TokenReader Node := do
  let start ← offset
  let isConstant ← atWord "const"
  require (isConstant || (← atWord "let") || (← atWord "var"))
  advance
  let first ← declarator g ctx isConstant inLoopHead
  let more ← collect (do
    if ← eat .comma then return some (← declarator g ctx isConstant inLoopHead) else return none) g.fuel
  node start .variableDeclaration (first :: more)

/-- The word `let` starts a declaration here. -/
def atLetDeclaration : TokenReader Bool := do
  if ← atWord "let" then
    match (← peek).1 with
    | .word name _ => return name != "in" && name != "instanceof"
    | .punct .braceOpen | .punct .bracketOpen => return true
    | _ => return false
  else return false

/-- A variable declaration starts here. -/
def atVariables : TokenReader Bool := do
  return (← atWord "var") || (← atWord "const") || (← atLetDeclaration)

/-- Variables as a statement. -/
def variableStatement (g : Grammar) (ctx : Context) : TokenReader Node := do
  let start ← offset
  let declaration ← variableList g ctx false
  semicolon
  node start .variableDeclaration declaration.parts

/-- A name for a type. -/
def typeAlias (g : Grammar) (ctx : Context) (start : Nat) : TokenReader Node := do
  expectWord "type"
  let _ ← bindingName ctx
  let generics ← typeParameters? g ctx
  expect .assign
  let type ← g.type ctx
  semicolon
  node start .typeDeclaration (generics ++ [type])

/-- An interface with the ones it extends. -/
def interfaceDeclaration (g : Grammar) (ctx : Context) (start : Nat) : TokenReader Node := do
  expectWord "interface"
  let _ ← bindingName ctx
  let generics ← typeParameters? g ctx
  let bases ← if ← eatWord "extends" then do
      let first ← namedType g ctx
      let more ← collect (do
        if ← eat .comma then return some (← namedType g ctx) else return none) g.fuel
      pure (first :: more)
    else pure []
  let members ← typeMembers g ctx
  node start .typeDeclaration (generics ++ bases ++ members)

/-- One member of an enumeration and its value. -/
def enumMember (g : Grammar) (ctx : Context) : TokenReader (List Node) := do
  let key ← propertyKey g ctx
  require (key.kind != .literal)
  if ← eat .assign then return [key, ← g.inner ctx] else return [key]

/-- An enumeration. -/
def enumDeclaration (g : Grammar) (ctx : Context) (start : Nat) : TokenReader Node := do
  let _ ← eatWord "const"
  expectWord "enum"
  let _ ← bindingName ctx
  expect .braceOpen
  let members ← commaList g.fuel .braceClose (enumMember g ctx)
  node start .typeDeclaration members.flatten

/-- The items of a namespace in braces. -/
def namespaceBody (g : Grammar) (ctx : Context) : TokenReader (List Node) := do
  expect .braceOpen
  let items ← collect (do
    if ← atPunct .braceClose then return none
    else return some (← g.parse .moduleItem ctx.inside)) g.fuel
  expect .braceClose
  return items

/-- A namespace, from its name on. -/
def namespaceTail (g : Grammar) (ctx : Context) (start : Nat) : TokenReader Node := do
  if (← token) == .string then
    advance
    if ← atPunct .braceOpen then node start .typeDeclaration (← namespaceBody g ctx)
    else
      semicolon
      node start .typeDeclaration []
  else
    let _ ← bindingName ctx
    let _ ← collect (do
      if ← eat .dot then
        let _ ← anyName
        return some ()
      else return none) g.fuel
    node start .typeDeclaration (← namespaceBody g ctx)

/-- The words a typed declaration can start with. -/
inductive TypedDeclaration where
  | alias
  | interface
  | enumeration
  | namespace
  | global
  | abstractClass

/-- The typed declaration that starts here, if any. -/
def typedDeclaration? (ctx : Context) : TokenReader (Option TypedDeclaration) := do
  if !ctx.dialect.typed then return none
  match ← token with
  | .word name false =>
    let (next, newline) ← peek
    let named := match next with
      | .word _ _ => true
      | _ => false
    match name with
    | "enum" => return some .enumeration
    | "const" => return if next == .word "enum" false then some .enumeration else none
    | "type" => return if named && !newline then some .alias else none
    | "interface" => return if named && !newline then some .interface else none
    | "namespace" => return if named && !newline then some .namespace else none
    | "module" => return if (named || next == .string) && !newline then some .namespace else none
    | "global" => return if next == .punct .braceOpen then some .global else none
    | "abstract" => return if next == .word "class" false && !newline then some .abstractClass else none
    | _ => return none
  | _ => return none

/-- A typed declaration of the kind found. -/
def typedDeclaration (g : Grammar) (ctx : Context) (start : Nat) (marks : List Node) :
    TypedDeclaration → TokenReader Node
  | .alias => typeAlias g ctx start
  | .interface => interfaceDeclaration g ctx start
  | .enumeration => enumDeclaration g ctx start
  | .namespace => do
    advance
    namespaceTail g ctx start
  | .global => do
    advance
    node start .typeDeclaration (← namespaceBody g ctx)
  | .abstractClass => do
    advance
    classDeclaration g ctx start marks

/-- The word `async` in front of a function. -/
def atAsyncFunction : TokenReader Bool := do
  return (← atWord "async") && (← peek) == (.word "function" false, false)

/-- A declaration of any kind, when one starts here. -/
def declaration? (g : Grammar) (ctx : Context) : TokenReader (Option Node) := do
  let start ← offset
  match ← typedDeclaration? ctx with
  | some found => return some (← typedDeclaration g ctx start [] found)
  | none =>
    if ← atVariables then return some (← variableStatement g ctx)
    else if ← atWord "function" then return some (← functionDeclaration g ctx start false)
    else if ← atAsyncFunction then
      advance
      return some (← functionDeclaration g ctx start true)
    else if ← atWord "class" then return some (← classDeclaration g ctx start [])
    else return none

/-- A declaration of something that exists elsewhere, when one starts here. -/
def ambientDeclaration? (g : Grammar) (ctx : Context) : TokenReader (Option Node) := do
  if !(ctx.dialect.typed && (← atWord "declare")) || (← peek).2 then return none
  attempt do
    advance
    match ← declaration? g { ctx with ambient := true } with
    | some found => return found
    | none => failure

/-- A class with decorators in front, when one starts here. -/
def decoratedClass (g : Grammar) (ctx : Context) (start : Nat) (marks : List Node) : TokenReader Node := do
  match ← typedDeclaration? ctx with
  | some .abstractClass =>
    advance
    classDeclaration g ctx start marks
  | _ => classDeclaration g ctx start marks

end SpaMigration.Syntax
