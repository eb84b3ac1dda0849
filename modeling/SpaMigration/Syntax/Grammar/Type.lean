import SpaMigration.Syntax.Grammar.Pattern

/-!
# Types

The types of the typed language. A traversal looks for nothing in types but the expressions that keys
in brackets hold, so every type is a node of one kind over its parts.
-/
namespace SpaMigration.Syntax

open TokenReader

/-- A type made of parts. -/
def typeNode (start : Nat) (parts : List Node) : TokenReader Node := node start .typeExpression parts

/-- The arguments of a generic type, in angle brackets. -/
def typeArguments (g : Grammar) (ctx : Context) : TokenReader (List Node) := do
  openAngle
  let first ← g.type ctx
  let more ← collect (do if ← eat .comma then return some (← g.type ctx) else return none) g.fuel
  closeAngle
  return first :: more

/-- Type arguments on the same line, when there are any. -/
def typeArguments? (g : Grammar) (ctx : Context) : TokenReader (List Node) := do
  if (← newlineBefore) || !(← atAngle) then return [] else typeArguments g ctx

/-- One parameter of a generic declaration. -/
def typeParameter (g : Grammar) (ctx : Context) : TokenReader Node := do
  let start ← offset
  let _ ← collect (do
    if (← atWord "in") || (← atWord "const") then
      advance
      return some ()
    else
      match ← token, (← peek).1 with
      | .word "out" false, .word next _ =>
        if next == "extends" then return none
        else
          advance
          return some ()
      | _, _ => return none) g.fuel
  let name ← anyName
  require (!reservedWords.contains name)
  let bound ← if ← eatWord "extends" then pure [← g.type ctx] else pure []
  let fallback ← if ← eat .assign then pure [← g.type ctx] else pure []
  typeNode start (bound ++ fallback)

/-- The parameters of a generic declaration, in angle brackets; there is at least one. -/
def typeParameters (g : Grammar) (ctx : Context) : TokenReader (List Node) := do
  openAngle
  let first ← typeParameter g ctx
  let more ← collect (do
    if ← eat .comma then
      if ← atCloseAngle then return none else return some (← typeParameter g ctx)
    else return none) g.fuel
  closeAngle
  return first :: more

/-- The parameters of a generic declaration, when there are any. -/
def typeParameters? (g : Grammar) (ctx : Context) : TokenReader (List Node) := do
  if ctx.dialect.typed && (← atPunct .less) then typeParameters g ctx else return []

/-- The result type of a function: a type, or a statement about a parameter. -/
def resultType (g : Grammar) (ctx : Context) : TokenReader Node := do
  let start ← offset
  let assertion ← attempt do
    expectWord "asserts"
    require (!(← newlineBefore))
    let name ← anyName
    require (name != "is")
    if (← atWord "is") && !(← newlineBefore) then
      advance
      pure [← g.type ctx]
    else pure []
  match assertion with
  | some parts => typeNode start parts
  | none =>
    let statement ← attempt do
      let _ ← anyName
      require (!(← newlineBefore))
      expectWord "is"
      g.type ctx
    match statement with
    | some part => typeNode start [part]
    | none => g.type ctx

/-- A result type after a colon, when there is one. -/
def resultType? (g : Grammar) (ctx : Context) : TokenReader (List Node) := do
  if !ctx.dialect.typed then return []
  if ← eat .colon then return [← resultType g ctx] else return []

/-- The type of a function after its type parameters, from the parameters on. -/
def functionTypeTail (g : Grammar) (ctx : Context) (start : Nat) (generics : List Node) :
    TokenReader Node := do
  let params ← parameters g ctx false
  expect .arrow
  let result ← resultType g ctx
  typeNode start (params ++ result :: generics)

/-- The type of a function or a constructor. -/
def functionType (g : Grammar) (ctx : Context) : TokenReader Node := do
  let start ← offset
  let generics ← typeParameters? g ctx
  functionTypeTail g ctx start generics

/-- A name with dots and type arguments. -/
def namedType (g : Grammar) (ctx : Context) : TokenReader Node := do
  let start ← offset
  let _ ← anyName
  let _ ← collect (do
    if (← atPunct .dot) && !(← newlineBefore) then
      advance
      let _ ← anyName
      return some ()
    else return none) g.fuel
  let args ← typeArguments? g ctx
  typeNode start args

/-- A type taken from a module. -/
def importType (g : Grammar) (ctx : Context) : TokenReader Node := do
  let start ← offset
  expectWord "import"
  expect .parenOpen
  let _ ← stringNode
  if ← eat .comma then
    let _ ← g.inner ctx
    let _ ← eat .comma
  expect .parenClose
  let _ ← collect (do
    if ← eat .dot then
      let _ ← anyName
      return some ()
    else return none) g.fuel
  let args ← typeArguments? g ctx
  typeNode start args

/-- The type of a value. -/
def queryType (g : Grammar) (ctx : Context) : TokenReader Node := do
  let start ← offset
  expectWord "typeof"
  if ← atWord "import" then typeNode start [← importType g ctx]
  else typeNode start [← namedType g ctx]

/-- The place behind the next hole's opening brace in a template, or behind the closing backtick. -/
def skipTemplateText : List Char → Nat → Option (Bool × Token.Place)
  | '\\' :: c :: rest, offset => skipTemplateText rest (offset + 1 + c.utf8Size)
  | '$' :: '\x7b' :: rest, offset => some (true, (rest, offset + 2))
  | '\x60' :: rest, offset => some (false, (rest, offset + 1))
  | c :: rest, offset => skipTemplateText rest (offset + c.utf8Size)
  | [], _ => none

/-- The pieces of a template up to its closing backtick, where `hole` reads what braces enclose. -/
def templateHoles (hole : TokenReader Node) : Token.Place → Nat → TokenReader (List Node)
  | _, 0 => failure
  | (s, offset), rounds + 1 => do
    match skipTemplateText s offset with
    | some (true, place) =>
      goTo place
      let part ← hole
      let state ← get
      require (state.token == .punct .braceClose)
      return part :: (← templateHoles hole state.behind rounds)
    | some (false, place) =>
      goTo place
      return []
    | none => failure

/-- The holes of a template whose opening backtick is next. -/
def templateParts (g : Grammar) (hole : TokenReader Node) : TokenReader (List Node) := do
  let state ← get
  require (state.token == .punct .backtick)
  templateHoles hole state.behind g.fuel

/-- One element of a tuple: it may be named, optional or the rest. -/
def tupleElement (g : Grammar) (ctx : Context) : TokenReader Node := do
  let start ← offset
  let _ ← eat .ellipsis
  let _ ← attempt do
    let _ ← anyName
    let _ ← eat .question
    expect .colon
  let part ← g.type ctx
  let _ ← eat .question
  typeNode start [part]

/-- The end of a member of an object type. -/
def memberEnd : TokenReader Unit := do
  if !(← eat .comma) then semicolon

/-- Parameters and result of a signature. -/
def signature (g : Grammar) (ctx : Context) : TokenReader (List Node) := do
  let generics ← typeParameters? g ctx
  let params ← parameters g ctx false
  let result ← resultType? g ctx
  return params ++ result ++ generics

/-- A signature for keys of a type: the name of the key, its type, the type of the values. -/
def indexSignature (g : Grammar) (ctx : Context) : TokenReader (List Node) := do
  expect .bracketOpen
  let _ ← bindingName ctx
  expect .colon
  let key ← g.type ctx
  expect .bracketClose
  let value ← typeAnnotation? g ctx
  return key :: value

/-- A modifier of a member: one of the words, where something that can be named follows. -/
def memberModifier (words : List String) : TokenReader (Option String) := do
  match ← token with
  | .word name false =>
    if words.contains name then
      match ← peek with
      | (.word _ _, false) | (.string, false) | (.number, false) | (.privateName, false)
      | (.punct .bracketOpen, false) =>
        advance
        return some name
      | _ => return none
    else return none
  | _ => return none

/-- One member of an object type. -/
def typeMember (g : Grammar) (ctx : Context) : TokenReader Node := do
  let start ← offset
  if (← atPunct .parenOpen) || (← atPunct .less) then
    let parts ← signature g ctx
    memberEnd
    typeNode start parts
  else
    match ← attempt (do
      expectWord "new"
      require ((← atPunct .parenOpen) || (← atPunct .less))) with
    | some _ =>
      let parts ← signature g ctx
      memberEnd
      typeNode start parts
    | none =>
      let _ ← collect (memberModifier ["readonly", "static"]) g.fuel
      match ← attempt (indexSignature g ctx) with
      | some parts =>
        memberEnd
        typeNode start parts
      | none =>
        let _ ← memberModifier ["get", "set"]
        let key ← propertyKey g ctx
        let _ ← eat .question
        if (← atPunct .parenOpen) || (← atPunct .less) then
          let parts ← signature g ctx
          memberEnd
          typeNode start (key :: parts)
        else
          let types ← typeAnnotation? g ctx
          memberEnd
          typeNode start (key :: types)

/-- The members of an object type in braces. -/
def typeMembers (g : Grammar) (ctx : Context) : TokenReader (List Node) := do
  expect .braceOpen
  let members ← collect (do
    if ← atPunct .braceClose then return none else return some (← typeMember g ctx)) g.fuel
  expect .braceClose
  return members

/-- A sign that adds a property of the members or takes it away. -/
def mappingSign : TokenReader Bool := do
  if ← eat .plus then return true else eat .minus

/-- An object type that maps the members of another type. -/
def mappedType (g : Grammar) (ctx : Context) : TokenReader Node := do
  let start ← offset
  expect .braceOpen
  if ← mappingSign then expectWord "readonly"
  else
    let _ ← eatWord "readonly"
  expect .bracketOpen
  let _ ← anyName
  expectWord "in"
  let source ← g.type ctx
  let renamed ← if ← eatWord "as" then pure [← g.type ctx] else pure []
  expect .bracketClose
  if ← mappingSign then expect .question
  else
    let _ ← eat .question
  let value ← typeAnnotation? g ctx
  let _ ← eatSemicolon
  expect .braceClose
  typeNode start (source :: renamed ++ value)

/-- A type without operators. -/
def primaryType (g : Grammar) (ctx : Context) : TokenReader Node := do
  let start ← offset
  match ← token with
  | .word name _ =>
    if name == "typeof" then queryType g ctx
    else if name == "import" then importType g ctx
    else if ["void", "null", "this", "true", "false"].contains name then
      advance
      typeNode start []
    else
      require (!reservedWords.contains name)
      namedType g ctx
  | .string | .number =>
    advance
    typeNode start []
  | .punct .minus =>
    advance
    require ((← token) == .number)
    advance
    typeNode start []
  | .punct .backtick => typeNode start (← templateParts g (g.type ctx))
  | .punct .braceOpen =>
    match ← attempt (mappedType g ctx) with
    | some mapped => return mapped
    | none => typeNode start (← typeMembers g ctx)
  | .punct .bracketOpen =>
    advance
    let items ← commaList g.fuel .bracketClose (tupleElement g ctx)
    typeNode start items
  | .punct .parenOpen =>
    advance
    let part ← g.type ctx
    expect .parenClose
    typeNode start [part]
  | _ => failure

/-- A type followed by brackets: arrays and parts of types. -/
def arrayType (g : Grammar) (ctx : Context) : TokenReader Node := do
  let start ← offset
  let element ← primaryType g ctx
  let indexes ← collect (do
    if (← atPunct .bracketOpen) && !(← newlineBefore) then
      advance
      if ← eat .bracketClose then return some []
      else
        let index ← g.type ctx
        expect .bracketClose
        return some [index]
    else return none) g.fuel
  typeNode start (element :: indexes.flatten)

/-- An inferred type and its bound. A bound that a question mark follows belongs to a conditional. -/
def inferredType (g : Grammar) (ctx : Context) : TokenReader Node := do
  let start ← offset
  expectWord "infer"
  let _ ← anyName
  let bound ← attempt do
    expectWord "extends"
    let bound ← g.parse .plainType ctx
    require (!(← atPunct .question))
    return bound
  typeNode start bound.toList

/-- A type with operators in front of it. -/
def prefixedType (g : Grammar) (ctx : Context) : TokenReader Node := do
  let start ← offset
  let operators ← collect (do
    match ← token, (← peek).1 with
    | .word name false, next =>
      let starts := match next with
        | .word _ _ | .string | .number => true
        | .punct p => [Punct.braceOpen, .bracketOpen, .parenOpen, .backtick].contains p
        | _ => false
      if ["keyof", "unique", "readonly"].contains name && starts then
        advance
        return some ()
      else return none
    | _, _ => return none) g.fuel
  let inferring ← wouldSucceed do
    expectWord "infer"
    anyName
  let part ← if inferring then inferredType g ctx else arrayType g ctx
  if operators.isEmpty then return part else typeNode start [part]

/-- Types joined by a mark, which may also stand in front. -/
def joinedTypes (g : Grammar) (mark : Punct) (item : TokenReader Node) : TokenReader Node := do
  let start ← offset
  let _ ← eat mark
  let first ← item
  let more ← collect (do if ← eat mark then return some (← item) else return none) g.fuel
  if more.isEmpty then return first else typeNode start (first :: more)

/-- A type that is no conditional type, as `Goal.plainType` asks for. -/
def plainType (g : Grammar) (ctx : Context) : TokenReader Node := do
  let start ← offset
  let _ ← attempt do
    expectWord "abstract"
    require (← atWord "new")
  if ← eatWord "new" then functionType g ctx
  else
    let function? ← if (← atPunct .less) || (← atPunct .parenOpen) then attempt (functionType g ctx)
      else pure none
    match function? with
    | some type => typeNode start [type]
    | none => joinedTypes g .bar (joinedTypes g .ampersand (unionMember g ctx))
where
  /-- A member of a union, which may be a function type after the first mark. -/
  unionMember (g : Grammar) (ctx : Context) : TokenReader Node := do
    if (← atPunct .less) || (← atPunct .parenOpen) then
      match ← attempt (functionType g ctx) with
      | some type => return type
      | none => prefixedType g ctx
    else if ← wouldSucceed (do expectWord "new"; require ((← atPunct .parenOpen) || (← atPunct .less))) then
      advance
      functionType g ctx
    else prefixedType g ctx

/-- A type, as `Goal.type` asks for. -/
def type (g : Grammar) (ctx : Context) : TokenReader Node := do
  let start ← offset
  let checked ← g.parse .plainType ctx
  if (← atWord "extends") && !(← newlineBefore) then
    advance
    let bound ← g.parse .plainType ctx
    expect .question
    let yes ← g.type ctx
    expect .colon
    let no ← g.type ctx
    typeNode start [checked, bound, yes, no]
  else return checked

end SpaMigration.Syntax
