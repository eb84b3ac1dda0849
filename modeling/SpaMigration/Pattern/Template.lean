import SpaMigration.Pattern.Match

/-!
# Replacement templates

A template is text in which `$` introduces references to groups: `$1` and `$name` take the longest run
of letters, digits and underscores, `$` followed by a name in braces takes what the braces enclose, and
`$$` stands for a dollar sign. A reference to a group that does not exist, or took no part in the match,
stands for nothing. A dollar sign that introduces no reference stands for itself.
-/
namespace SpaMigration

/-- A piece of a template. -/
inductive TemplatePiece where
  | text (chars : List Char)
  | reference (name : List Char)
  deriving DecidableEq, Repr

/-- A template for the text that takes the place of a match. -/
abbrev Template := List TemplatePiece

namespace Template

/-- A character that may stand in a reference without braces. -/
def isNameChar (c : Char) : Bool := c.isAlphanum || c == '_'

/-- The pieces of a template text. -/
def pieces : Nat → List Char → Template
  | 0, _ => []
  | _ + 1, [] => []
  | fuel + 1, '$' :: '$' :: rest => .text ['$'] :: pieces fuel rest
  | fuel + 1, '$' :: '\x7b' :: rest =>
    match rest.dropWhile (· != '\x7d') with
    | [] => .text ['$'] :: pieces fuel ('\x7b' :: rest)
    | _ :: after => .reference (rest.takeWhile (· != '\x7d')) :: pieces fuel after
  | fuel + 1, '$' :: rest =>
    let name := rest.takeWhile isNameChar
    if name.isEmpty then .text ['$'] :: pieces fuel rest
    else .reference name :: pieces fuel (rest.dropWhile isNameChar)
  | fuel + 1, c :: rest =>
    .text (c :: rest.takeWhile (· != '$')) :: pieces fuel (rest.dropWhile (· != '$'))

/-- A template from its text. -/
def parse (text : String) : Template :=
  pieces (text.toList.length + 1) text.toList

/-- The number a reference names, when it consists of digits. -/
def number? (name : List Char) : Option Nat :=
  let digits := if name.head? == some '+' then name.drop 1 else name
  if digits.isEmpty || !digits.all Char.isDigit then none
  else some (digits.foldl (fun n d => n * 10 + (d.toNat - '0'.toNat)) 0)

/-- The text of the template for a match, where `names` gives the numbers of named groups. -/
def expand (template : Template) (names : List (String × Nat)) (m : Match) : List Char :=
  template.flatMap fun
    | .text chars => chars
    | .reference name =>
      match number? name with
      | some index => m.group index
      | none =>
        match names.find? (·.1 == String.ofList name) with
        | some (_, index) => m.group index
        | none => []

end Template

end SpaMigration
