import SpaMigration.Syntax.Dialect
import SpaMigration.Syntax.TokenReader

/-!
# The shape of the grammar

The grammar is written as functions that do not call themselves. Where a construct contains others of
its own kind, the function asks a `Grammar` for a `Goal`; the recursion is closed in one place, where the
whole program is parsed. The `Context` tells a construct what encloses it.
-/
namespace SpaMigration.Syntax

/-- A construct that may contain itself. -/
inductive Goal where
  /-- Expressions with commas between them. -/
  | expression
  /-- One expression. -/
  | assignment
  /-- An expression of names, calls and members, without operators. -/
  | leftHandSide
  /-- A construction, from `new` on. -/
  | construction
  | statement
  /-- A statement, an import or an export. -/
  | moduleItem
  /-- A name or a pattern that takes a value apart. -/
  | binding
  | type
  /-- A type that is no conditional type. -/
  | plainType
  /-- An element or a fragment. -/
  | markup

/-- What encloses a construct. -/
structure Context where
  dialect : Dialect
  /-- The word `in` is an operator. -/
  allowIn : Bool := true
  /-- An arrow function may declare its result type. -/
  allowArrowType : Bool := true
  inFunction : Bool := false
  /-- The word `super` stands for the methods of the class that is extended. -/
  inMember : Bool := false
  /-- The words `new.target` stand for what was constructed. -/
  inConstructible : Bool := false
  inAsync : Bool := false
  inGenerator : Bool := false
  canBreak : Bool := false
  canContinue : Bool := false
  labels : List String := []
  /-- Declarations are without values and bodies. -/
  ambient : Bool := false

namespace Context

/-- The context inside brackets of any kind. -/
def inside (ctx : Context) : Context := { ctx with allowIn := true, allowArrowType := true }

/-- The context of the body of an arrow function. -/
def arrowBody (ctx : Context) (isAsync : Bool) : Context :=
  { dialect := ctx.dialect, inFunction := true, inMember := ctx.inMember
    inConstructible := ctx.inConstructible, inAsync := isAsync, ambient := ctx.ambient }

/-- The context of the body of a function. -/
def body (ctx : Context) (isAsync isGenerator : Bool) : Context :=
  { ctx.arrowBody isAsync with inConstructible := true, inGenerator := isGenerator }

/-- The context of a function that is no member of a class or an object. -/
def free (ctx : Context) : Context := { ctx with inMember := false }

/-- The context of a member of a class or an object. -/
def member (ctx : Context) : Context := { ctx with inMember := true }

/-- The context of the body of a loop. -/
def loop (ctx : Context) : Context := { ctx.inside with canBreak := true, canContinue := true }

end Context

/-- The parsers for the constructs that contain themselves, and a bound for repetitions. -/
structure Grammar where
  fuel : Nat
  parse : Goal → Context → TokenReader Node

namespace Grammar

/-- One expression inside brackets. -/
def inner (g : Grammar) (ctx : Context) : TokenReader Node := g.parse .assignment ctx.inside

/-- Expressions with commas inside brackets. -/
def innerAll (g : Grammar) (ctx : Context) : TokenReader Node := g.parse .expression ctx.inside

/-- A type. -/
def type (g : Grammar) (ctx : Context) : TokenReader Node := g.parse .type ctx.inside

end Grammar

open TokenReader

/-- Words that are never names. -/
def reservedWords : List String :=
  ["break", "case", "catch", "class", "const", "continue", "debugger", "default", "delete", "do", "else",
   "export", "extends", "false", "finally", "for", "function", "if", "import", "in", "instanceof", "new",
   "null", "return", "super", "switch", "this", "throw", "true", "try", "typeof", "var", "void", "while",
   "with", "await"]

/-- Words that are no names in the plain language, as modules are always strict. -/
def strictWords : List String :=
  ["enum", "implements", "interface", "let", "package", "private", "protected", "public", "static", "yield"]

/-- A word that may name a value where it is used. -/
def isReference (ctx : Context) (name : String) : Bool :=
  !reservedWords.contains name && (ctx.dialect.typed || !strictWords.contains name) &&
    !(ctx.inGenerator && name == "yield")

/-- A word that may be bound to a value. The typed language binds `this` as a parameter. -/
def isBindable (ctx : Context) (name : String) : Bool :=
  if ctx.dialect.typed then
    !reservedWords.contains name || name == "this" || (name == "await" && ctx.ambient)
  else isReference ctx name && name != "eval" && name != "arguments"

/-- A name that is being bound. -/
def bindingName (ctx : Context) : TokenReader String := do
  match ← token with
  | .word name _ =>
    require (isBindable ctx name)
    advance
    return name
  | _ => failure

/-- Any word at all, as after a dot. -/
def anyName : TokenReader String := do
  match ← token with
  | .word name _ =>
    advance
    return name
  | _ => failure

/-- A string. -/
def stringNode : TokenReader Node := do
  let start ← offset
  require ((← token) == .string)
  advance
  node start .stringLiteral []

/-- The key of a property: a name, a string, a number, or an expression in brackets. -/
def propertyKey (g : Grammar) (ctx : Context) : TokenReader Node := do
  let start ← offset
  match ← token with
  | .word name _ =>
    advance
    node start (.nameKey name) []
  | .string => stringNode
  | .number =>
    advance
    node start .literal []
  | .punct .bracketOpen =>
    advance
    let key ← g.inner ctx
    expect .bracketClose
    node start .computedKey [key]
  | _ => failure

/-- A type after a colon, when there is one. -/
def typeAnnotation? (g : Grammar) (ctx : Context) : TokenReader (List Node) := do
  if !ctx.dialect.typed then return []
  if ← eat .colon then return [← g.type ctx] else return []

end SpaMigration.Syntax
