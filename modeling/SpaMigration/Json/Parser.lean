import SpaMigration.Json.Basic

/-!
# Reading JSON

The grammar of JSON, read from a list of characters. Nesting deeper than `maxDepth` is refused, as
are lone surrogates, control characters in strings and numbers past the largest floating-point
number. `Json.parse?` reads a whole text and keeps the fields of objects as they were written.

A number without fraction and exponent is whole as long as it fits in 64 bits. Any other number is
read as its leading digits, as far as these fit in 64 bits, times a power of ten, both steps rounded
to floating point.
-/
namespace SpaMigration.Json.Parser

/-- A reader: the value it finds at the start of a text and what follows it. -/
abbrev Reader (α : Type) := List Char → Option (α × List Char)

/-- Arrays and objects may be nested this deep. -/
def maxDepth : Nat := 127

/-- The greatest whole number of 64 bits. -/
def maxWhole : Nat := UInt64.size - 1

/-- The text after white space. -/
def skipBlanks (s : List Char) : List Char :=
  s.dropWhile fun c => c == ' ' || c == '\t' || c == '\n' || c == '\r'

/-- The value of a hexadecimal digit. -/
def hexValue? (c : Char) : Option Nat :=
  if c.isDigit then some (c.toNat - '0'.toNat)
  else if 'a' ≤ c ∧ c ≤ 'f' then some (c.toNat - 'a'.toNat + 10)
  else if 'A' ≤ c ∧ c ≤ 'F' then some (c.toNat - 'A'.toNat + 10)
  else none

/-- The number written by four hexadecimal digits. -/
def hexUnit : Reader Nat
  | a :: b :: c :: d :: rest => do
    let a ← hexValue? a
    let b ← hexValue? b
    let c ← hexValue? c
    let d ← hexValue? d
    return (((a * 16 + b) * 16 + c) * 16 + d, rest)
  | _ => none

/-- The character named by the escape after `\u`: one unit, or a pair of surrogates. -/
def unicodeEscape (s : List Char) : Option (Char × List Char) := do
  let (unit, rest) ← hexUnit s
  if 0xD800 ≤ unit ∧ unit < 0xDC00 then
    match rest with
    | '\\' :: 'u' :: rest =>
      let (low, rest) ← hexUnit rest
      if 0xDC00 ≤ low ∧ low < 0xE000 then
        return (Char.ofNat (0x10000 + (unit - 0xD800) * 0x400 + (low - 0xDC00)), rest)
      else none
    | _ => none
  else if 0xDC00 ≤ unit ∧ unit < 0xE000 then none
  else return (Char.ofNat unit, rest)

/-- The character that stands for a one-letter escape. -/
def shortEscape? : Char → Option Char
  | '"' => some '"'
  | '\\' => some '\\'
  | '/' => some '/'
  | 'b' => some '\x08'
  | 'f' => some '\x0c'
  | 'n' => some '\n'
  | 'r' => some '\r'
  | 't' => some '\t'
  | _ => none

/-- The rest of a string after its opening quote; `read` holds the characters so far, last first. -/
def stringTail : Nat → List Char → List Char → Option (String × List Char)
  | 0, _, _ => none
  | _ + 1, _, [] => none
  | _ + 1, read, '"' :: rest => some (String.ofList read.reverse, rest)
  | fuel + 1, read, '\\' :: 'u' :: rest =>
    match unicodeEscape rest with
    | some (c, rest) => stringTail fuel (c :: read) rest
    | none => none
  | fuel + 1, read, '\\' :: e :: rest =>
    match shortEscape? e with
    | some c => stringTail fuel (c :: read) rest
    | none => none
  | fuel + 1, read, c :: rest =>
    if c == '\\' || c.toNat < 0x20 then none else stringTail fuel (c :: read) rest

/-- The digits at the start of a text and what follows them. -/
def digits (s : List Char) : List Char × List Char := s.span Char.isDigit

/-- The value of a decimal digit. -/
def digitValue (c : Char) : Nat := c.toNat - '0'.toNat

/-- The leading digits as long as their value fits in 64 bits, and how many are left over. -/
def leadingDigits : Nat → List Char → Nat × Nat
  | value, [] => (value, 0)
  | value, d :: ds =>
    let next := value * 10 + digitValue d
    if maxWhole < next then (value, ds.length + 1) else leadingDigits next ds

/-- `value * 10 ^ exponent` in floating point, where very small values are scaled twice. -/
def scale? (value : Binary64) (exponent : Int) : Option Binary64 := do
  if value.mantissa = 0 then return value
  if 308 < exponent then none
  else if 0 ≤ exponent then value.mul? (← Binary64.ofRatio? (Nat.pow 10 exponent.natAbs) 1)
  else if -308 ≤ exponent then value.div? (← Binary64.ofRatio? (Nat.pow 10 exponent.natAbs) 1)
  else
    let value ← value.div? (← Binary64.ofRatio? (Nat.pow 10 308) 1)
    if value.mantissa = 0 then return value
    else if exponent < -616 then return Binary64.zero
    else value.div? (← Binary64.ofRatio? (Nat.pow 10 (exponent + 308).natAbs) 1)

/-- The exponent part of a number: its sign and digits, zero when there is none. -/
def exponentPart (s : List Char) : Option (Int × List Char) :=
  match s with
  | e :: rest =>
    if e == 'e' || e == 'E' then
      let (negative, rest) :=
        match rest with
        | '-' :: rest => (true, rest)
        | '+' :: rest => (false, rest)
        | rest => (false, rest)
      let (ds, rest) := digits rest
      if ds.isEmpty then none
      else
        let size : Int := (ds.foldl (fun n d => n * 10 + digitValue d) 0 : Nat)
        some (if negative then -size else size, rest)
    else some (0, s)
  | [] => some (0, s)

/-- The fraction digits after a point, none when there is no point. -/
def fractionPart (s : List Char) : Option (List Char × List Char) :=
  match s with
  | '.' :: rest =>
    let (ds, rest) := digits rest
    if ds.isEmpty then none else some (ds, rest)
  | _ => some ([], s)

/-- A number that starts with a digit. -/
def unsignedNumber (negative : Bool) (s : List Char) : Option (Json × List Char) := do
  let (ds, rest) := digits s
  if ds.isEmpty || (ds.head? == some '0' && 1 < ds.length) then none
  let (fraction, afterFraction) ← fractionPart rest
  let (exponent, afterExponent) ← exponentPart afterFraction
  let (value, dropped) := leadingDigits 0 ds
  let isWhole := afterExponent.length == rest.length && dropped == 0
  if isWhole && !negative then return (.number (.whole value), rest)
  else if isWhole && 0 < value && value ≤ UInt64.size / 2 then return (.number (.whole (-value)), rest)
  else
    let (value, unread) := if dropped = 0 then leadingDigits value fraction else (value, fraction.length)
    let places : Int := (dropped : Int) - ((fraction.length - unread : Nat) : Int)
    let float ← scale? (← Binary64.ofRatio? value 1) (places + exponent)
    return (.number (.float (float.withSign negative)), afterExponent)

/-- A keyword of the grammar and the value it stands for. -/
def keyword (word : List Char) (json : Json) (s : List Char) : Option (Json × List Char) :=
  if word.isPrefixOf s then some (json, s.drop word.length) else none

mutual

/-- A value, after any white space. -/
def value : Nat → Nat → Reader Json
  | 0, _, _ => none
  | fuel + 1, depth, s =>
    match skipBlanks s with
    | '{' :: rest =>
      if depth = 0 then none
      else
        match skipBlanks rest with
        | '}' :: rest => some (.object [], rest)
        | rest => (members fuel (depth - 1) rest).map fun (fields, rest) => (.object fields, rest)
    | '[' :: rest =>
      if depth = 0 then none
      else
        match skipBlanks rest with
        | ']' :: rest => some (.array [], rest)
        | rest => (elements fuel (depth - 1) rest).map fun (items, rest) => (.array items, rest)
    | '"' :: rest => (stringTail (rest.length + 1) [] rest).map fun (s, rest) => (.string s, rest)
    | '-' :: rest => unsignedNumber true rest
    | 't' :: rest => keyword ['r', 'u', 'e'] (.bool true) rest
    | 'f' :: rest => keyword ['a', 'l', 's', 'e'] (.bool false) rest
    | 'n' :: rest => keyword ['u', 'l', 'l'] .null rest
    | rest => unsignedNumber false rest

/-- The items of an array from the first one to the closing bracket. -/
def elements : Nat → Nat → Reader (List Json)
  | 0, _, _ => none
  | fuel + 1, depth, s =>
    match value fuel depth s with
    | none => none
    | some (item, rest) =>
      match skipBlanks rest with
      | ',' :: rest => (elements fuel depth rest).map fun (items, rest) => (item :: items, rest)
      | ']' :: rest => some ([item], rest)
      | _ => none

/-- The fields of an object from the first key to the closing brace. -/
def members : Nat → Nat → Reader (List (String × Json))
  | 0, _, _ => none
  | fuel + 1, depth, s =>
    match skipBlanks s with
    | '"' :: rest =>
      match stringTail (rest.length + 1) [] rest with
      | none => none
      | some (key, rest) =>
        match skipBlanks rest with
        | ':' :: rest =>
          match value fuel depth rest with
          | none => none
          | some (json, rest) =>
            match skipBlanks rest with
            | ',' :: rest =>
              (members fuel depth rest).map fun (fields, rest) => ((key, json) :: fields, rest)
            | '}' :: rest => some ([(key, json)], rest)
            | _ => none
        | _ => none
    | _ => none

end

end Parser

/-- The value a whole text denotes, with the fields of objects as written. -/
def parse? (text : String) : Option Json :=
  let s := text.toList
  match Parser.value (2 * s.length + 2) Parser.maxDepth s with
  | some (json, rest) => if (Parser.skipBlanks rest).isEmpty then some json else none
  | none => none

/-- The value a whole text denotes, in canonical form. -/
def parseCanonical? (text : String) : Option Json :=
  (parse? text).map canonical

end SpaMigration.Json
