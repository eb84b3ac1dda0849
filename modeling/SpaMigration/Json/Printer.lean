import SpaMigration.Json.Basic
import SpaMigration.Number.Shortest

/-!
# Printing JSON

`Json.pretty` writes one element per line, indented by two blanks; `Json.compact` writes everything
on one line. Text other than quotes, backslashes and control characters stands as it is.
-/
namespace SpaMigration

namespace Decimal

/-- A decimal as text: positional while the point falls within sixteen digits or at most four zeros
follow it, scientific otherwise. A positional number without fraction ends in `.0`. -/
def text (d : Decimal) : String :=
  let digits := Nat.toDigits 10 d.digits
  let count := digits.length
  let point : Int := (count : Int) + d.exponent
  let zeros (n : Nat) : List Char := List.replicate n '0'
  if 0 ≤ d.exponent ∧ point ≤ 16 then
    String.ofList (digits ++ zeros d.exponent.natAbs ++ ['.', '0'])
  else if 0 < point ∧ point ≤ 16 then
    String.ofList (digits.take point.natAbs ++ '.' :: digits.drop point.natAbs)
  else if -5 < point ∧ point ≤ 0 then
    String.ofList ('0' :: '.' :: zeros point.natAbs ++ digits)
  else
    let exponent := toString (point - 1)
    let fraction := if count = 1 then [] else '.' :: digits.drop 1
    String.ofList (digits.take 1 ++ fraction) ++ "e" ++ exponent

end Decimal

namespace JsonNumber

/-- The shortest text that reads back as the number. -/
def text : JsonNumber → String
  | .whole n => toString n
  | .float x =>
    let sign := if x.negative then "-" else ""
    if x.mantissa = 0 then sign ++ "0.0" else sign ++ x.shortest.text

end JsonNumber

namespace Json

/-- The lower-case hexadecimal digit of a number below sixteen. -/
def hexDigit (n : Nat) : Char :=
  if n < 10 then Char.ofNat ('0'.toNat + n) else Char.ofNat ('a'.toNat + n - 10)

/-- A character as it is written inside a string. -/
def escapedChar (c : Char) : List Char :=
  if c == '"' then ['\\', '"']
  else if c == '\\' then ['\\', '\\']
  else if c == '\n' then ['\\', 'n']
  else if c == '\r' then ['\\', 'r']
  else if c == '\t' then ['\\', 't']
  else if c == '\x08' then ['\\', 'b']
  else if c == '\x0c' then ['\\', 'f']
  else if c.toNat < 0x20 then ['\\', 'u', '0', '0', hexDigit (c.toNat / 16), hexDigit (c.toNat % 16)]
  else [c]

/-- A string in quotes. -/
def quoted (s : String) : String :=
  String.ofList ('"' :: s.toList.flatMap escapedChar ++ ['"'])

/-- A line break and the indentation of a level. -/
def lineBreak (level : Nat) : String :=
  "\n" ++ String.ofList (List.replicate (2 * level) ' ')

mutual

/-- A value whose inner lines are indented from `level` on. -/
def prettyAt (level : Nat) : Json → String
  | .null => "null"
  | .bool b => if b then "true" else "false"
  | .number n => n.text
  | .string s => quoted s
  | .array [] => "[]"
  | .array items =>
    "[" ++ ",".intercalate (prettyItems (level + 1) items) ++ lineBreak level ++ "]"
  | .object [] => "\x7b\x7d"
  | .object fields =>
    "\x7b" ++ ",".intercalate (prettyFields (level + 1) fields) ++ lineBreak level ++ "\x7d"

/-- Each item on its line. -/
def prettyItems (level : Nat) : List Json → List String
  | [] => []
  | item :: rest => (lineBreak level ++ prettyAt level item) :: prettyItems level rest

/-- Each field on its line. -/
def prettyFields (level : Nat) : List (String × Json) → List String
  | [] => []
  | (key, value) :: rest =>
    (lineBreak level ++ quoted key ++ ": " ++ prettyAt level value) :: prettyFields level rest

end

/-- The value over several lines. -/
def pretty (json : Json) : String := prettyAt 0 json

mutual

/-- The value on one line. -/
def compact : Json → String
  | .null => "null"
  | .bool b => if b then "true" else "false"
  | .number n => n.text
  | .string s => quoted s
  | .array items => "[" ++ ",".intercalate (compactItems items) ++ "]"
  | .object fields => "\x7b" ++ ",".intercalate (compactFields fields) ++ "\x7d"

/-- Each item on its own. -/
def compactItems : List Json → List String
  | [] => []
  | item :: rest => compact item :: compactItems rest

/-- Each field on its own. -/
def compactFields : List (String × Json) → List String
  | [] => []
  | (key, value) :: rest => (quoted key ++ ":" ++ compact value) :: compactFields rest

end

end Json

end SpaMigration
