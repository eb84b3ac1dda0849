import SpaMigration.Syntax.Tree
import SpaMigration.Text.Blank
import SpaMigration.Text.Identifier

/-!
# Tokens

A token is read from the text in front of it without regard to the grammar: a slash is always an
operator here, and a backtick only starts a template. The parser reads regular expressions, templates
and markup from the text itself where the grammar calls for them, so text that is no token, such as an
apostrophe in markup, is only marked as `invalid`.
-/
namespace SpaMigration.Syntax

/-- Punctuation. -/
inductive Punct where
  | braceOpen
  | braceClose
  | parenOpen
  | parenClose
  | bracketOpen
  | bracketClose
  | semicolon
  | comma
  | dot
  | ellipsis
  | question
  | questionDot
  | colon
  | arrow
  | assign
  /-- An assignment combined with another operator. -/
  | update
  | less
  | greater
  | plus
  | minus
  | star
  | slash
  /-- Double plus or double minus. -/
  | step
  | power
  | bar
  | ampersand
  | bang
  | tilde
  | logical
  | nullish
  /-- Any other operator between two operands. -/
  | operator
  | at
  | backtick
  deriving DecidableEq, Repr

/-- A token. -/
inductive Token where
  | word (name : String) (escaped : Bool)
  | privateName
  | punct (p : Punct)
  | string
  | number
  | invalid
  | endOfText
  deriving DecidableEq, Repr

namespace Token

/-- The longest punctuation at the start of a text and its length. -/
def punct? : List Char → Option (Punct × Nat)
  | '\x7b' :: _ => some (.braceOpen, 1)
  | '\x7d' :: _ => some (.braceClose, 1)
  | '(' :: _ => some (.parenOpen, 1)
  | ')' :: _ => some (.parenClose, 1)
  | '[' :: _ => some (.bracketOpen, 1)
  | ']' :: _ => some (.bracketClose, 1)
  | ';' :: _ => some (.semicolon, 1)
  | ',' :: _ => some (.comma, 1)
  | '.' :: '.' :: '.' :: _ => some (.ellipsis, 3)
  | '.' :: _ => some (.dot, 1)
  | '?' :: '?' :: '=' :: _ => some (.update, 3)
  | '?' :: '?' :: _ => some (.nullish, 2)
  | '?' :: '.' :: c :: _ => if c.isDigit then some (.question, 1) else some (.questionDot, 2)
  | '?' :: '.' :: [] => some (.questionDot, 2)
  | '?' :: _ => some (.question, 1)
  | ':' :: _ => some (.colon, 1)
  | '=' :: '>' :: _ => some (.arrow, 2)
  | '=' :: '=' :: '=' :: _ => some (.operator, 3)
  | '=' :: '=' :: _ => some (.operator, 2)
  | '=' :: _ => some (.assign, 1)
  | '<' :: '!' :: '-' :: '-' :: _ => none
  | '<' :: '<' :: '=' :: _ => some (.update, 3)
  | '<' :: '<' :: _ => some (.operator, 2)
  | '<' :: '=' :: _ => some (.operator, 2)
  | '<' :: _ => some (.less, 1)
  | '>' :: '>' :: '>' :: '=' :: _ => some (.update, 4)
  | '>' :: '>' :: '>' :: _ => some (.operator, 3)
  | '>' :: '>' :: '=' :: _ => some (.update, 3)
  | '>' :: '>' :: _ => some (.operator, 2)
  | '>' :: '=' :: _ => some (.operator, 2)
  | '>' :: _ => some (.greater, 1)
  | '+' :: '+' :: _ => some (.step, 2)
  | '+' :: '=' :: _ => some (.update, 2)
  | '+' :: _ => some (.plus, 1)
  | '-' :: '-' :: _ => some (.step, 2)
  | '-' :: '=' :: _ => some (.update, 2)
  | '-' :: _ => some (.minus, 1)
  | '*' :: '*' :: '=' :: _ => some (.update, 3)
  | '*' :: '*' :: _ => some (.power, 2)
  | '*' :: '=' :: _ => some (.update, 2)
  | '*' :: _ => some (.star, 1)
  | '/' :: '=' :: _ => some (.update, 2)
  | '/' :: _ => some (.slash, 1)
  | '%' :: '=' :: _ => some (.update, 2)
  | '%' :: _ => some (.operator, 1)
  | '&' :: '&' :: '=' :: _ => some (.update, 3)
  | '&' :: '&' :: _ => some (.logical, 2)
  | '&' :: '=' :: _ => some (.update, 2)
  | '&' :: _ => some (.ampersand, 1)
  | '|' :: '|' :: '=' :: _ => some (.update, 3)
  | '|' :: '|' :: _ => some (.logical, 2)
  | '|' :: '=' :: _ => some (.update, 2)
  | '|' :: _ => some (.bar, 1)
  | '^' :: '=' :: _ => some (.update, 2)
  | '^' :: _ => some (.operator, 1)
  | '!' :: '=' :: '=' :: _ => some (.operator, 3)
  | '!' :: '=' :: _ => some (.operator, 2)
  | '!' :: _ => some (.bang, 1)
  | '~' :: _ => some (.tilde, 1)
  | '@' :: _ => some (.at, 1)
  | '\x60' :: _ => some (.backtick, 1)
  | _ => none

/-- A place in the text: what follows it and its offset in bytes. -/
abbrev Place := List Char × Nat

/-- What separates tokens: code outside comments, a comment to the end of the line, a comment up to its
closing mark. -/
inductive Gap where
  | code
  | line
  | block

/-- A blank that does not end a line. -/
def isInlineBlank (c : Char) : Bool :=
  c.toNat == 0xFEFF || (Text.isBlank c && !Text.isLineTerminator c && c.toNat != 0x85)

/-- The place behind white space and comments, and whether a line ended on the way; `none` when a comment
is left open. -/
def skipGap : Gap → List Char → Nat → Bool → Option (Place × Bool)
  | .code, '/' :: '/' :: rest, offset, line => skipGap .line rest (offset + 2) line
  | .code, '/' :: '*' :: rest, offset, line => skipGap .block rest (offset + 2) line
  | .code, c :: rest, offset, line =>
    if Text.isLineTerminator c then skipGap .code rest (offset + c.utf8Size) true
    else if isInlineBlank c then skipGap .code rest (offset + c.utf8Size) line
    else some ((c :: rest, offset), line)
  | .line, c :: rest, offset, line =>
    if Text.isLineTerminator c then skipGap .code rest (offset + c.utf8Size) true
    else skipGap .line rest (offset + c.utf8Size) line
  | .block, '*' :: '/' :: rest, offset, line => skipGap .code rest (offset + 2) line
  | .block, c :: rest, offset, line =>
    skipGap .block rest (offset + c.utf8Size) (line || Text.isLineTerminator c)
  | .block, [], _, _ => none
  | _, [], offset, line => some (([], offset), line)

/-- The value of a hexadecimal digit. -/
def hexValue? (c : Char) : Option Nat :=
  if c.isDigit then some (c.toNat - '0'.toNat)
  else if 'a' ≤ c ∧ c ≤ 'f' then some (c.toNat - 'a'.toNat + 10)
  else if 'A' ≤ c ∧ c ≤ 'F' then some (c.toNat - 'A'.toNat + 10)
  else none

/-- A hexadecimal digit. -/
def isHex (c : Char) : Bool := (hexValue? c).isSome

/-- The number that hexadecimal digits write. -/
def hexNumber? (digits : List Char) : Option Nat :=
  if digits.isEmpty then none
  else digits.foldlM (fun n d => (hexValue? d).map (n * 16 + ·)) 0

/-- The character named after `\u`: four digits or some in braces, and how many characters name it. -/
def unicodeEscape? : List Char → Option (Char × Nat)
  | '\x7b' :: rest => do
    let digits := rest.takeWhile isHex
    let n ← hexNumber? digits
    match rest.drop digits.length with
    | '\x7d' :: _ => if n.isValidChar then some (Char.ofNat n, digits.length + 2) else none
    | _ => none
  | a :: b :: c :: d :: _ => do
    let n ← hexNumber? [a, b, c, d]
    return (Char.ofNat n, 4)
  | _ => none

/-- The rest of a word with escapes: the characters after `read`, last first, and the place behind it.
`none` when an escape is broken or names a character that does not belong there. -/
def wordTail : Nat → List Char → Place → Option (List Char × Place)
  | 0, _, _ => none
  | fuel + 1, read, ('\\' :: 'u' :: rest, offset) =>
    match unicodeEscape? rest with
    | some (c, count) =>
      let allowed := if read.isEmpty then Text.isIdentifierStart c else Text.isIdentifierPart c
      if allowed then wordTail fuel (c :: read) (rest.drop count, offset + 2 + count) else none
    | none => none
  | fuel + 1, read, (c :: rest, offset) =>
    let allowed := if read.isEmpty then Text.isIdentifierStart c else Text.isIdentifierPart c
    if allowed then wordTail fuel (c :: read) (rest, offset + c.utf8Size)
    else if c == '\\' then none
    else some (read, (c :: rest, offset))
  | _ + 1, read, ([], offset) => some (read, ([], offset))

/-- A word at a place, whether it is written with escapes, and the place behind it. -/
def word? (place : Place) : Option (String × Bool × Place) :=
  let plain := place.1.takeWhile Text.isIdentifierPart
  match place.1.drop plain.length with
  | '\\' :: _ =>
    match wordTail (place.1.length + 1) [] place with
    | some (read, place) => some (String.ofList read.reverse, true, place)
    | none => none
  | rest =>
    if plain.isEmpty then none
    else some (String.ofList plain, false, (rest, place.2 + Text.byteSize plain))

/-- Where the reader of a string stands: in its text, or in an escape in braces with the value so far. -/
inductive StringMode where
  | text
  | braces (value : Option Nat)

/-- The place behind a string, after its opening quote. A string ends on its line unless the line break is
escaped, and an escape for a character is complete. -/
def skipString (quote : Char) : StringMode → List Char → Nat → Option Place
  | .text, '\\' :: '\r' :: '\n' :: rest, offset => skipString quote .text rest (offset + 3)
  | .text, '\\' :: 'x' :: a :: b :: rest, offset =>
    if isHex a && isHex b then skipString quote .text rest (offset + 4) else none
  | .text, '\\' :: 'u' :: '\x7b' :: rest, offset => skipString quote (.braces none) rest (offset + 3)
  | .text, '\\' :: 'u' :: a :: b :: c :: d :: rest, offset =>
    if isHex a && isHex b && isHex c && isHex d then skipString quote .text rest (offset + 6) else none
  | .text, '\\' :: '0' :: d :: rest, offset =>
    if d.isDigit then none else skipString quote .text (d :: rest) (offset + 2)
  | .text, '\\' :: c :: rest, offset =>
    if c == 'x' || c == 'u' || (c.isDigit && c != '0') then none
    else skipString quote .text rest (offset + 1 + c.utf8Size)
  | .text, c :: rest, offset =>
    if c == quote then some (rest, offset + 1)
    else if c == '\n' || c == '\r' || c == '\\' then none
    else skipString quote .text rest (offset + c.utf8Size)
  | .braces value, c :: rest, offset =>
    match hexValue? c, value with
    | some digit, _ =>
      let next := value.getD 0 * 16 + digit
      if next < 0x110000 then skipString quote (.braces (some next)) rest (offset + 1) else none
    | none, some _ => if c == '\x7d' then skipString quote .text rest (offset + 1) else none
    | none, none => none
  | _, [], _ => none

/-- The place behind digits of a kind, which single underscores may separate. -/
def skipDigits (isDigit : Char → Bool) : List Char → Nat → Option Place
  | '_' :: c :: rest, offset => if isDigit c then skipDigits isDigit (c :: rest) (offset + 1) else none
  | '_' :: [], _ => none
  | c :: rest, offset =>
    if isDigit c then skipDigits isDigit rest (offset + 1) else some (c :: rest, offset)
  | [], offset => some ([], offset)

/-- The place behind digits of a kind, of which there must be one. -/
def skipSomeDigits (isDigit : Char → Bool) : Place → Option Place
  | (c :: rest, offset) => if isDigit c then skipDigits isDigit rest (offset + 1) else none
  | ([], _) => none

/-- The place behind an exponent, when there is one. -/
def skipExponent : Place → Option Place
  | (e :: rest, offset) =>
    if e == 'e' || e == 'E' then
      match rest with
      | '+' :: rest => skipSomeDigits Char.isDigit (rest, offset + 2)
      | '-' :: rest => skipSomeDigits Char.isDigit (rest, offset + 2)
      | rest => skipSomeDigits Char.isDigit (rest, offset + 1)
    else some (e :: rest, offset)
  | ([], offset) => some ([], offset)

/-- The place behind a fraction and an exponent, after the point. -/
def skipFraction : Place → Option Place
  | (c :: rest, offset) =>
    if c.isDigit then (skipDigits Char.isDigit rest (offset + 1)).bind skipExponent
    else skipExponent (c :: rest, offset)
  | ([], offset) => some ([], offset)

/-- The place behind what may follow the whole part of a decimal number. -/
def skipDecimal : Place → Option Place
  | ('n' :: rest, offset) => some (rest, offset + 1)
  | ('.' :: rest, offset) => skipFraction (rest, offset + 1)
  | place => skipExponent place

/-- The place behind digits of another base, possibly marked as a big number. -/
def skipBased (isDigit : Char → Bool) (place : Place) : Option Place :=
  (skipSomeDigits isDigit place).map fun
    | ('n' :: rest, offset) => (rest, offset + 1)
    | place => place

/-- The place behind the digits of a number, of whatever base. -/
def skipNumber? : Place → Option Place
  | ('0' :: c :: rest, offset) =>
    if c == 'x' || c == 'X' then skipBased isHex (rest, offset + 2)
    else if c == 'o' || c == 'O' then
      skipBased (fun d => decide ('0' ≤ d) && decide (d ≤ '7')) (rest, offset + 2)
    else if c == 'b' || c == 'B' then skipBased (fun d => d == '0' || d == '1') (rest, offset + 2)
    else if c.isDigit || c == '_' then none
    else skipDecimal (c :: rest, offset + 1)
  | ('0' :: [], offset) => some ([], offset + 1)
  | ('.' :: rest, offset) => (skipSomeDigits Char.isDigit (rest, offset + 1)).bind skipExponent
  | place => (skipSomeDigits Char.isDigit place).bind skipDecimal

/-- The place behind a number; neither a digit nor the start of a word may follow. -/
def number? (place : Place) : Option Place := do
  let behind ← skipNumber? place
  match behind.1 with
  | c :: _ => if c.isDigit || Text.isIdentifierStart c then none else some behind
  | [] => some behind

/-- A token with the place behind it, or an invalid token of one character. -/
def orInvalid (place : Place) : Option (Token × Place) → Token × Place
  | some found => found
  | none => (.invalid, (place.1.drop 1, place.2 + Text.byteSize (place.1.take 1)))

/-- The token at a place and the place behind it. -/
def read (place : Place) : Token × Place :=
  let (s, offset) := place
  match s with
  | [] => (.endOfText, place)
  | c :: rest =>
    orInvalid place <|
      if Text.isIdentifierStart c || c == '\\' then
        (word? place).map fun (name, escaped, behind) => (.word name escaped, behind)
      else if c.isDigit || (c == '.' && rest.head?.any Char.isDigit) then
        (number? place).map fun behind => (.number, behind)
      else if c == '"' || c == '\'' then
        (skipString c .text rest (offset + 1)).map fun behind => (.string, behind)
      else if c == '#' then
        if rest.head?.any fun d => Text.isIdentifierStart d || d == '\\' then
          (word? (rest, offset + 1)).map fun (_, _, behind) => (.privateName, behind)
        else none
      else (punct? s).map fun (p, n) => (.punct p, (s.drop n, offset + n))

end Token

end SpaMigration.Syntax
