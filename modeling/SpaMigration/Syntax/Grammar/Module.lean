import SpaMigration.Syntax.Grammar.Statement

/-!
# Imports and exports

The items of a module. An import covers its closing semicolon and holds its specifiers, then the source.
-/
namespace SpaMigration.Syntax

open TokenReader

/-- The source of an import or export, after the word `from`. -/
def fromSource : TokenReader Node := do
  expectWord "from"
  stringNode

/-- How the source is to be read, when it is told. -/
def importAttributes (g : Grammar) (ctx : Context) : TokenReader (List Node) := do
  if (← atWord "with") || ((← atWord "assert") && !(← newlineBefore)) then
    match (← peek).1 with
    | .punct .braceOpen =>
      advance
      return [← objectLiteral g ctx]
    | _ => return []
  else return []

/-- A name in a list of imports or exports: a word or a string. -/
def moduleName : TokenReader (Option String) := do
  match ← token with
  | .word name _ =>
    advance
    return some name
  | .string =>
    advance
    return none
  | _ => failure

/-- The word `type` in front of a single name. Where the word `as` follows, what comes after it decides
whether `type` is itself the name. -/
def typeMark (ctx : Context) : TokenReader Bool := do
  if !(ctx.dialect.typed && (← atWord "type")) then return false
  let marked ← attempt do
    advance
    match ← token with
    | .string => pure ()
    | .word "as" false =>
      match ← peek with
      | (.word "as" false, _) => require (← wouldSucceed (do advance; advance; let _ ← moduleName))
      | (.word _ _, _) | (.string, _) => failure
      | _ => pure ()
    | .word _ _ => pure ()
    | _ => failure
  return marked.isSome

/-- One name of an import in braces, with the name it is bound to. -/
def importSpecifier (ctx : Context) : TokenReader Node := do
  let start ← offset
  let _ ← typeMark ctx
  let imported ← moduleName
  if ← eatWord "as" then
    let name ← bindingName ctx
    node start (.importNamed name) []
  else
    match imported with
    | some name =>
      require (isBindable ctx name)
      node start (.importNamed name) []
    | none => failure

/-- The whole of a module, bound to one name. -/
def importNamespace (ctx : Context) : TokenReader Node := do
  let start ← offset
  expect .star
  expectWord "as"
  let name ← bindingName ctx
  node start (.importNamespace name) []

/-- The specifiers that do not import the default. -/
def importOthers (g : Grammar) (ctx : Context) : TokenReader (List Node) := do
  if ← atPunct .star then return [← importNamespace ctx]
  else
    expect .braceOpen
    commaList g.fuel .braceClose (importSpecifier ctx)

/-- The specifiers of an import up to the word `from`. -/
def importSpecifiers (g : Grammar) (ctx : Context) : TokenReader (List Node) := do
  if ← atAnyWord then
    let start ← offset
    let name ← bindingName ctx
    let specifier ← node start (.importDefault name) []
    let others ← if ← eat .comma then importOthers g ctx else pure []
    return specifier :: others
  else importOthers g ctx

/-- The word `type` after `import` or `export` marks the whole as types. -/
def typeOnlyMark (ctx : Context) : TokenReader Bool := do
  if !(ctx.dialect.typed && (← atWord "type")) then return false
  let marked ← attempt do
    advance
    match ← token with
    | .punct .braceOpen | .punct .star => pure ()
    | .word name _ => require (name != "from" || (← peek).1 == .word "from" false)
    | _ => failure
  return marked.isSome

/-- Another name for a module or for a part of a namespace, after the equals sign. -/
def importAliasTail (g : Grammar) (ctx : Context) : TokenReader (List Node) := do
  let required ← attempt do
    expectWord "require"
    expect .parenOpen
    let source ← stringNode
    expect .parenClose
    return source
  match required with
  | some source =>
    semicolon
    return [source]
  | none =>
    let name ← namedType g ctx
    semicolon
    return [name]

/-- An alias made with an equals sign, when one starts here. -/
def importAlias? (g : Grammar) (ctx : Context) (start : Nat) : TokenReader (Option Node) := do
  if !ctx.dialect.typed then return none
  let head ← attempt do
    let _ ← typeOnlyMark ctx
    let _ ← bindingName ctx
    expect .assign
  match head with
  | some _ =>
    let parts ← importAliasTail g ctx
    return some (← node start .moduleItem parts)
  | none => return none

/-- An import, from the word `import` on. -/
def importDeclaration (g : Grammar) (ctx : Context) (start : Nat) : TokenReader Node := do
  expectWord "import"
  if (← token) == .string then
    let source ← stringNode
    let attributes ← importAttributes g ctx
    semicolon
    node start (.importDeclaration false) (source :: attributes)
  else
    match ← importAlias? g ctx start with
    | some found => return found
    | none =>
      let typeOnly ← typeOnlyMark ctx
      let specifiers ← importSpecifiers g ctx
      let source ← fromSource
      let attributes ← importAttributes g ctx
      semicolon
      node start (.importDeclaration typeOnly) (specifiers ++ source :: attributes)

/-- The value a module exports by default. -/
def exportDefault (g : Grammar) (ctx : Context) (start : Nat) : TokenReader Node := do
  let valueStart ← offset
  if ← atWord "function" then
    let value ← functionExpression g ctx valueStart false
    node start .exportDefault [value]
  else if ← atAsyncFunction then
    advance
    let value ← functionExpression g ctx valueStart true
    node start .exportDefault [value]
  else if (← atWord "class") || (ctx.dialect.typed && (← atPunct .at)) then
    let marks ← decorators g ctx
    let _ ← if ctx.dialect.typed then eatWord "abstract" else pure false
    let value ← classExpression g ctx valueStart marks
    node start .exportDefault [value]
  else
    match ← typedDeclaration? ctx with
    | some .abstractClass =>
      advance
      let value ← classExpression g ctx valueStart []
      node start .exportDefault [value]
    | some .interface =>
      let value ← interfaceDeclaration g ctx valueStart
      node start .exportDefault [value]
    | _ =>
      let value ← g.parse .assignment ctx.inside
      semicolon
      node start .moduleItem [value]

/-- One name of an export in braces, and whether it may name a value of this module. -/
def exportSpecifier (ctx : Context) : TokenReader Bool := do
  let _ ← typeMark ctx
  let exported ← moduleName
  if ← eatWord "as" then
    let _ ← moduleName
  return exported.any fun name => !reservedWords.contains name && name != "enum"

/-- The rest of an export whose source is told. -/
def exportSource (g : Grammar) (ctx : Context) (start : Nat) : TokenReader Node := do
  let source ← fromSource
  let attributes ← importAttributes g ctx
  semicolon
  node start .moduleItem (source :: attributes)

/-- An export of everything, from the star on. -/
def exportAll (g : Grammar) (ctx : Context) (start : Nat) : TokenReader Node := do
  expect .star
  if ← eatWord "as" then
    let _ ← moduleName
  exportSource g ctx start

/-- An export of names in braces. Without a source, the plain language wants names of values. -/
def exportNames (g : Grammar) (ctx : Context) (start : Nat) : TokenReader Node := do
  expect .braceOpen
  let areNames ← commaList g.fuel .braceClose (exportSpecifier ctx)
  if ← atWord "from" then exportSource g ctx start
  else
    require (ctx.dialect.typed || areNames.all id)
    semicolon
    node start .moduleItem []

/-- The exports that only the typed language has, when one is next. -/
def typedExport? (g : Grammar) (ctx : Context) (start : Nat) : TokenReader (Option Node) := do
  if !ctx.dialect.typed then return none
  if ← eat .assign then
    let value ← g.parse .expression ctx.inside
    semicolon
    return some (← node start .moduleItem [value])
  else if (← atWord "as") && (← peek).1 == .word "namespace" false then
    advance
    advance
    let _ ← anyName
    semicolon
    return some (← node start .moduleItem [])
  else if ← eatWord "import" then importAlias? g ctx start
  else return none

/-- The default of another module passed on under a name, which only the plain language has. -/
def exportDefaultFrom? (g : Grammar) (ctx : Context) (start : Nat) : TokenReader (Option Node) := do
  if ctx.dialect.typed then return none
  let name ← attempt do
    let _ ← anyName
    if ← eat .comma then
      if ← eat .star then
        expectWord "as"
        let _ ← moduleName
      else
        expect .braceOpen
        let _ ← commaList g.fuel .braceClose (exportSpecifier ctx)
    require (← atWord "from")
    require ((← peek).1 == .string)
  match name with
  | some _ => return some (← exportSource g ctx start)
  | none => return none

/-- A declaration that is exported. -/
def exportedDeclaration (g : Grammar) (ctx : Context) (start : Nat) (marks : List Node) :
    TokenReader Node := do
  let declarationStart ← offset
  let marks ← if marks.isEmpty then decorators g ctx else pure marks
  if !marks.isEmpty then
    let found ← decoratedClass g ctx declarationStart marks
    node start .moduleItem [found]
  else
    match ← ambientDeclaration? g ctx with
    | some found => node start .moduleItem [found]
    | none =>
      match ← declaration? g ctx with
      | some found => node start .moduleItem [found]
      | none => failure

/-- An export, from the word `export` on; `marks` are the decorators in front of it. -/
def exportDeclaration (g : Grammar) (ctx : Context) (start : Nat) (marks : List Node) : TokenReader Node := do
  expectWord "export"
  match ← exportDefaultFrom? g ctx start with
  | some found => return found
  | none =>
    match ← typedExport? g ctx start with
    | some found => return found
    | none =>
      if ← eatWord "default" then
        if marks.isEmpty then exportDefault g ctx start
        else
          let valueStart ← offset
          let _ ← eatWord "abstract"
          let value ← classExpression g ctx valueStart marks
          node start .exportDefault [value]
      else
        let _ ← attempt do
          require (← typeOnlyMark ctx)
          require ((← atPunct .braceOpen) || (← atPunct .star))
        if ← atPunct .star then exportAll g ctx start
        else if ← atPunct .braceOpen then exportNames g ctx start
        else exportedDeclaration g ctx start marks

/-- A statement, an import or an export, as `Goal.moduleItem` asks for. -/
def moduleItem (g : Grammar) (ctx : Context) : TokenReader Node := do
  let start ← offset
  if ← atWord "import" then
    match (← peek).1 with
    | .punct .parenOpen | .punct .dot => g.parse .statement ctx
    | _ => importDeclaration g ctx start
  else if ← atWord "export" then exportDeclaration g ctx start []
  else if ctx.dialect.typed && (← atPunct .at) then
    let marks ← decorators g ctx
    if ← atWord "export" then exportDeclaration g ctx start marks
    else decoratedClass g ctx start marks
  else g.parse .statement ctx

end SpaMigration.Syntax
