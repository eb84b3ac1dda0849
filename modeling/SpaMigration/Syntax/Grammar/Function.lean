import SpaMigration.Syntax.Grammar.Type

/-!
# Functions and classes

A function has its parameters and its body before its types; a class has its decorators, its members and
then the class it extends. In the typed language a body may be missing, and one that is still open at the
end of the text is taken as it is.
-/
namespace SpaMigration.Syntax

open TokenReader

/-- The statements of a block after its opening brace, with the closing one. -/
def blockTail (g : Grammar) (ctx : Context) : TokenReader (List Node) := do
  let statements ← collect (do
    if (← atPunct .braceClose) || (← token) == .endOfText then return none
    else return some (← g.parse .statement ctx)) g.fuel
  if ctx.dialect.typed && (← token) == .endOfText then return statements
  expect .braceClose
  return statements

/-- A block of statements. -/
def block (g : Grammar) (ctx : Context) : TokenReader Node := do
  let start ← offset
  expect .braceOpen
  let statements ← blockTail g ctx
  node start .block statements

/-- What follows the name of a function. -/
structure FunctionTail where
  params : List Node
  body : List Node
  types : List Node

/-- The parts of a function in the order of a traversal, `marks` being its decorators. -/
def FunctionTail.parts (tail : FunctionTail) (marks : List Node) : List Node :=
  tail.params ++ marks ++ tail.body ++ tail.types

/-- Type parameters, parameters, result type and body. -/
def functionTail (g : Grammar) (ctx : Context) (isAsync isGenerator ofConstructor : Bool) :
    TokenReader FunctionTail := do
  let bodyContext := ctx.body isAsync isGenerator
  let generics ← typeParameters? g ctx
  let params ← parameters g bodyContext ofConstructor
  let result ← resultType? g ctx
  let noBody ← if ctx.dialect.typed && !(← atPunct .braceOpen) then eatSemicolon
    else pure false
  if noBody then return ⟨params, [], generics ++ result⟩
  else
    let body ← block g bodyContext
    return ⟨params, [body], generics ++ result⟩

/-- What an accessor does with its property. -/
inductive Accessor where
  | reads
  | writes

/-- The accessor that a word announces. -/
def Accessor.ofWord? : String → Option Accessor
  | "get" => some .reads
  | "set" => some .writes
  | _ => none

/-- The parameters fit what the accessor does: none to read, and one that is not the rest to write. -/
def Accessor.accepts : Accessor → List Node → Bool
  | .reads, params => params.isEmpty
  | .writes, [param] => param.parts.all (·.kind != .restPattern)
  | .writes, _ => false

/-- What follows the name of a method. The plain language checks the parameters of accessors. -/
def methodTail (g : Grammar) (ctx : Context) (isAsync isGenerator ofConstructor : Bool)
    (accessor : Option Accessor) : TokenReader FunctionTail := do
  let tail ← functionTail g ctx.member isAsync isGenerator ofConstructor
  require (ctx.dialect.typed || accessor.all (·.accepts tail.params))
  return tail

/-- A function declaration, from the word `function` on. -/
def functionDeclaration (g : Grammar) (ctx : Context) (start : Nat) (isAsync : Bool) : TokenReader Node := do
  expectWord "function"
  let isGenerator ← eat .star
  let name ← bindingName ctx
  let tail ← functionTail g ctx.free isAsync isGenerator false
  node start (.functionDeclaration name) (tail.parts [])

/-- A function expression, from the word `function` on, with or without a name. -/
def functionExpression (g : Grammar) (ctx : Context) (start : Nat) (isAsync : Bool) : TokenReader Node := do
  expectWord "function"
  let isGenerator ← eat .star
  let name ← if (← atPunct .parenOpen) || (← atPunct .less) then pure none
    else do pure (some (← bindingName (ctx.body isAsync isGenerator)))
  let tail ← functionTail g ctx.free isAsync isGenerator false
  node start (.functionExpression name) (tail.parts [])

/-- The words that may stand in front of a member of a class. -/
def classModifiers (dialect : Dialect) : List String :=
  if dialect.typed then
    ["declare", "public", "private", "protected", "static", "abstract", "override", "readonly", "accessor"]
  else ["static"]

/-- One of some words in front of a member: something that can be named follows on the same line. -/
def classWord (words : List String) : TokenReader (Option String) := do
  match ← token with
  | .word name false =>
    if words.contains name then
      match ← peek with
      | (.word _ _, false) | (.string, false) | (.number, false) | (.privateName, false)
      | (.punct .bracketOpen, false) | (.punct .star, false) =>
        advance
        return some name
      | _ => return none
    else return none
  | _ => return none

/-- The name of a member, which may be private. -/
def memberKey (g : Grammar) (ctx : Context) : TokenReader Node := do
  let start ← offset
  if (← token) == .privateName then
    advance
    node start .literal []
  else propertyKey g ctx

/-- What the words in front of the name of a member say about it. -/
structure MemberWords where
  isStatic : Bool
  isAsync : Bool
  isGenerator : Bool
  accessor : Option Accessor

/-- The member is a plain method. -/
def MemberWords.isPlain (words : MemberWords) : Bool :=
  !words.isAsync && !words.isGenerator && words.accessor.isNone

/-- The plain language does not let a member of the class itself hide its prototype. -/
def MemberWords.allows (words : MemberWords) (key : Node) : Bool :=
  !(words.isStatic && key.kind == .nameKey "prototype")

/-- A method or a field, from its name on. No field is named like the constructor, which in the plain
language is a plain method. The typed language lets the next member follow a field directly. -/
def classMemberTail (g : Grammar) (ctx : Context) (start : Nat) (marks : List Node)
    (words : MemberWords) : TokenReader Node := do
  let key ← memberKey g ctx
  require (ctx.dialect.typed || words.allows key)
  let namesConstructor := key.kind == .nameKey "constructor"
  if ctx.dialect.typed then
    if !(← eat .question) then
      let _ ← eat .bang
  if (← atPunct .parenOpen) || (ctx.dialect.typed && (← atPunct .less)) then
    let isConstructor := namesConstructor && !words.isStatic
    require (ctx.dialect.typed || !isConstructor || words.isPlain)
    let takesMembers := namesConstructor || key.kind == .stringLiteral
    let tail ← methodTail g ctx words.isAsync words.isGenerator takesMembers words.accessor
    node start (if isConstructor then .constructor else .classMember) (key :: tail.parts marks)
  else
    require (!words.isGenerator && words.accessor.isNone && !namesConstructor)
    let types ← typeAnnotation? g ctx
    let value ← if ← eat .assign then pure [← g.inner (ctx.body false false)] else pure []
    let ends ← eatSemicolon
    require (ctx.dialect.typed || ends)
    node start .classMember (key :: value ++ types ++ marks)

/-- One member of a class. -/
def classMember (g : Grammar) (ctx : Context) : TokenReader Node := do
  let start ← offset
  if ← eat .semicolon then node start .classMember []
  else
    let marks ← decorators g ctx
    if (← atWord "static") && (← peek).1 == .punct .braceOpen then
      advance
      let body ← block g (ctx.body false false)
      node start .classMember (marks ++ [body])
    else
      let modifiers ← collect (classWord (classModifiers ctx.dialect)) g.fuel
      let index ← if ctx.dialect.typed then attempt (do
          let parts ← indexSignature g ctx
          if !(← eat .comma) then semicolon
          pure parts)
        else pure none
      match index with
      | some parts => node start .classMember parts
      | none =>
        let isAsync := (← classWord ["async"]).isSome
        let isGenerator ← eat .star
        let accessor ← if isAsync || isGenerator then pure none else attempt do
          let word ← classWord ["get", "set"]
          require (!(← atPunct .star))
          match word.bind Accessor.ofWord? with
          | some accessor => return accessor
          | none => failure
        let isStatic := modifiers.contains "static"
        classMemberTail g ctx start marks ⟨isStatic, isAsync, isGenerator, accessor⟩

/-- The members of a class in braces. A class of the plain language has one constructor. -/
def classBody (g : Grammar) (ctx : Context) : TokenReader (List Node) := do
  expect .braceOpen
  let members ← collect (do
    if ← atPunct .braceClose then return none else return some (← classMember g ctx.member)) g.fuel
  expect .braceClose
  require (ctx.dialect.typed || members.countP (·.kind == .constructor) ≤ 1)
  return members

/-- The class that is extended, when there is one, and its type arguments. -/
def classHeritage (g : Grammar) (ctx : Context) : TokenReader (List Node × List Node) := do
  if ← eatWord "extends" then
    let start ← offset
    let base ← g.parse .leftHandSide ctx.inside
    match base.kind, base.parts with
    | .cast, plain :: type :: types =>
      let heritage ← node start .heritage [plain]
      return ([heritage], type :: types)
    | _, _ =>
      let heritage ← node start .heritage [base]
      let types ← if ctx.dialect.typed && (← atAngle) then typeArguments g ctx else pure []
      return ([heritage], types)
  else return ([], [])

/-- The types a class implements. -/
def implementedTypes (g : Grammar) (ctx : Context) : TokenReader (List Node) := do
  if !ctx.dialect.typed then return []
  if ← eatWord "implements" then
    let first ← namedType g ctx
    let more ← collect (do if ← eat .comma then return some (← namedType g ctx) else return none) g.fuel
    return first :: more
  else return []

/-- A class after its name: its parts in the order of a traversal. -/
def classTail (g : Grammar) (ctx : Context) (marks : List Node) : TokenReader (List Node) := do
  let generics ← typeParameters? g ctx
  let (heritage, types) ← classHeritage g ctx
  let implemented ← implementedTypes g ctx
  let members ← classBody g ctx.inside
  return marks ++ members ++ heritage ++ generics ++ types ++ implemented

/-- The name of a class, when it has one. -/
def className? (ctx : Context) : TokenReader (Option String) := do
  match ← token with
  | .word name _ =>
    if name == "extends" || (ctx.dialect.typed && name == "implements") then return none
    else
      require (name != "let")
      return some (← bindingName ctx)
  | _ => return none

/-- A class declaration, from the word `class` on. -/
def classDeclaration (g : Grammar) (ctx : Context) (start : Nat) (marks : List Node) : TokenReader Node := do
  expectWord "class"
  match ← className? ctx with
  | some name =>
    let parts ← classTail g ctx marks
    node start (.classDeclaration name) parts
  | none => failure

/-- A class expression, from the word `class` on, with or without a name. -/
def classExpression (g : Grammar) (ctx : Context) (start : Nat) (marks : List Node) : TokenReader Node := do
  expectWord "class"
  let name ← className? ctx
  let parts ← classTail g ctx marks
  node start (.classExpression name) parts

end SpaMigration.Syntax
