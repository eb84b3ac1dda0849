import SpaMigration.Syntax.Token

/-!
# Reading tokens one after another

The state of a parser is the next token together with the places around it. Parsers fail without a
reason and can be tried: a failed attempt leaves the state as it was.
-/
namespace SpaMigration.Syntax

open Token (Place)

/-- The next token, the text it covers, whether a line ends before it, the place behind it, and the place
behind the token before. -/
structure ReaderState where
  token : Token
  span : Span
  here : Place
  behind : Place
  newline : Bool
  last : Place

namespace ReaderState

/-- The state behind a place: white space and comments are skipped and one token is read. -/
def after (place : Place) : ReaderState :=
  match Token.skipGap .code place.1 place.2 false with
  | some (here, newline) =>
    let (token, behind) := Token.read here
    ⟨token, ⟨here.2, behind.2⟩, here, behind, newline, place⟩
  | none => ⟨.invalid, ⟨place.2, place.2⟩, place, place, false, place⟩

/-- The state one token later. -/
def next (state : ReaderState) : ReaderState := after state.behind

end ReaderState

/-- A parser over tokens. -/
abbrev TokenReader := StateT ReaderState Option

namespace TokenReader

/-- The next token. -/
def token : TokenReader Token := do return (← get).token

/-- The token after the next one, and whether a line ends before it. -/
def peek : TokenReader (Token × Bool) := do
  let state := (← get).next
  return (state.token, state.newline)

/-- Moves on by one token. -/
def advance : TokenReader Unit := modify ReaderState.next

/-- Goes on behind a place. -/
def goTo (place : Place) : TokenReader Unit := set (ReaderState.after place)

/-- The offset of the next token. -/
def offset : TokenReader Nat := do return (← get).span.lo

/-- The end of the last token. -/
def lastEnd : TokenReader Nat := do return (← get).last.2

/-- A line ends before the next token. -/
def newlineBefore : TokenReader Bool := do return (← get).newline

/-- Goes on only if the condition holds. -/
def require (b : Bool) : TokenReader Unit := if b then pure () else failure

/-- The next token is this punctuation. -/
def atPunct (p : Punct) : TokenReader Bool := do return (← token) == .punct p

/-- The next token is this word, written without escapes. -/
def atWord (name : String) : TokenReader Bool := do return (← token) == .word name false

/-- The next token is a word. -/
def atAnyWord : TokenReader Bool := do
  match ← token with
  | .word _ _ => return true
  | _ => return false

/-- Takes this punctuation, if it is next. -/
def eat (p : Punct) : TokenReader Bool := do
  if ← atPunct p then
    advance
    return true
  else return false

/-- Takes this word, if it is next. -/
def eatWord (name : String) : TokenReader Bool := do
  if ← atWord name then
    advance
    return true
  else return false

/-- Takes this punctuation or fails. -/
def expect (p : Punct) : TokenReader Unit := do require (← eat p)

/-- Takes this word or fails. -/
def expectWord (name : String) : TokenReader Unit := do require (← eatWord name)

/-- What the parser finds, or nothing and the state as before. -/
def attempt {α : Type} (p : TokenReader α) : TokenReader (Option α) := fun state =>
  match p state with
  | some (a, state') => some (some a, state')
  | none => some (none, state)

/-- Whether the parser would succeed here; the state stays as it is. -/
def wouldSucceed {α : Type} (p : TokenReader α) : TokenReader Bool := fun state =>
  some ((p state).isSome, state)

/-- What rounds of a parser find until one finds nothing. -/
def collect {α : Type} (round : TokenReader (Option α)) : Nat → TokenReader (List α)
  | 0 => failure
  | fuel + 1 => do
    match ← round with
    | some a => return a :: (← collect round fuel)
    | none => return []

/-- Items up to a closing mark, with commas between them and possibly behind the last. -/
def commaList {α : Type} (fuel : Nat) (close : Punct) (item : TokenReader α) : TokenReader (List α) := do
  let items ← collect (do
    if ← atPunct close then return none
    else
      let a ← item
      if !(← atPunct close) then expect .comma
      return some a) fuel
  expect close
  return items

/-- A node from an offset up to the end of the last token. -/
def node (start : Nat) (kind : Kind) (parts : List Node) : TokenReader Node := do
  return .mk kind ⟨start, ← lastEnd⟩ parts

/-- Takes one opening angle bracket, also off a longer operator. -/
def openAngle : TokenReader Unit := do
  let state ← get
  match state.here with
  | ('<' :: rest, offset) => goTo (rest, offset + 1)
  | _ => failure

/-- Takes one closing angle bracket, also off a longer operator. -/
def closeAngle : TokenReader Unit := do
  let state ← get
  match state.here with
  | ('>' :: rest, offset) => goTo (rest, offset + 1)
  | _ => failure

/-- An opening angle bracket is next, possibly as the start of a longer operator. -/
def atAngle : TokenReader Bool := do return (← get).here.1.head? == some '<'

/-- A closing angle bracket is next, possibly as the start of a longer operator. -/
def atCloseAngle : TokenReader Bool := do return (← get).here.1.head? == some '>'

/-- The end of a statement: a semicolon, or nothing before a closing brace, a new line or the end. -/
def semicolon : TokenReader Unit := do
  if ← eat .semicolon then return
  let state ← get
  require (state.newline || state.token == .punct .braceClose || state.token == .endOfText)

/-- The statement ends here; a semicolon is taken. -/
def eatSemicolon : TokenReader Bool := do return (← attempt semicolon).isSome

end TokenReader

end SpaMigration.Syntax
