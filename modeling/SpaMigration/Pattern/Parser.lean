import SpaMigration.Pattern.Basic

/-!
# Reading patterns

The notation for patterns: characters, escapes, classes in brackets with nesting and set operations,
groups with and without names, flags, repetitions. Look-around and references back to a group are no
part of it. `Pattern.parse?` reads a whole text and also gives the numbers of its named groups.
-/
namespace SpaMigration.Pattern

/-- Switches that hold from where they are set to the end of the group. -/
structure Flags where
  caseless : Bool
  multiline : Bool
  dotAll : Bool
  swapGreed : Bool
  extended : Bool
  unicode : Bool
  deriving Inhabited

/-- The switches at the start of a pattern. -/
def Flags.initial : Flags := ⟨false, false, false, false, false, true⟩

/-- What is left to read, the number of groups opened so far, and the names among them. -/
structure ReaderState where
  rest : List Char
  groups : Nat
  names : List (String × Nat)

/-- A reader of part of a pattern. -/
abbrev PatternReader := StateT ReaderState Option

namespace PatternReader

/-- The text still to be read. -/
def rest : PatternReader (List Char) := do return (← get).rest

/-- Goes on behind what has been read. -/
def setRest (s : List Char) : PatternReader Unit := modify fun st => { st with rest := s }

/-- Drops white space and comments where these do not count. -/
def skipExtended : Nat → List Char → List Char
  | 0, s => s
  | _ + 1, [] => []
  | fuel + 1, c :: cs =>
    if Text.isBlank c then skipExtended fuel cs
    else if c == '#' then skipExtended fuel (cs.dropWhile (· != '\n'))
    else c :: cs

/-- The text at the next item of the pattern. -/
def atItem (flags : Flags) : PatternReader (List Char) := do
  let s ← rest
  if flags.extended then
    let s := skipExtended (s.length + 1) s
    setRest s
    return s
  else return s

/-- Goes on only if the condition holds. -/
def require (b : Bool) : PatternReader Unit := if b then pure () else failure

/-- The value of a hexadecimal digit. -/
def hexDigit? (c : Char) : Option Nat :=
  if c.isDigit then some (c.toNat - '0'.toNat)
  else if 'a' ≤ c ∧ c ≤ 'f' then some (c.toNat - 'a'.toNat + 10)
  else if 'A' ≤ c ∧ c ≤ 'F' then some (c.toNat - 'A'.toNat + 10)
  else none

/-- The scalar value that hexadecimal digits write. -/
def hexChar (digits : List Char) : PatternReader Char := do
  require (!digits.isEmpty)
  let n ← digits.foldlM (fun n d => (hexDigit? d).map (n * 16 + ·)) 0
  require (decide (n.isValidChar))
  return Char.ofNat n

/-- The character after the escape for a number of `width` hexadecimal digits or some in braces. -/
def hexEscape (width : Nat) : PatternReader Char := do
  match ← rest with
  | '\x7b' :: s =>
    let digits := s.takeWhile (· != '\x7d')
    require (digits.length < s.length)
    setRest (s.drop (digits.length + 1))
    hexChar digits
  | s =>
    require (decide (width ≤ s.length))
    setRest (s.drop width)
    hexChar (s.take width)

/-- The letters, digits and the underscore of ASCII. -/
def asciiWord : CharSet :=
  .union (.range 'a' 'z') (.union (.range 'A' 'Z') (.union (.range '0' '9') (.single '_')))

/-- The white space of ASCII. -/
def asciiBlank : CharSet := .ofList [' ', '\t', '\n', '\r', '\x0b', '\x0c']

/-- The class an escaped letter stands for. -/
def classEscape? (unicode : Bool) : Char → Option CharSet
  | 'd' => some (if unicode then .digit else .range '0' '9')
  | 'D' => some (.compl (if unicode then .digit else .range '0' '9'))
  | 's' => some (if unicode then .blank else asciiBlank)
  | 'S' => some (.compl (if unicode then .blank else asciiBlank))
  | 'w' => some (if unicode then .word else asciiWord)
  | 'W' => some (.compl (if unicode then .word else asciiWord))
  | _ => none

/-- The character an escaped letter stands for. -/
def controlEscape? : Char → Option Char
  | 'a' => some '\x07'
  | 'f' => some '\x0c'
  | 't' => some '\t'
  | 'n' => some '\n'
  | 'r' => some '\r'
  | 'v' => some '\x0b'
  | _ => none

/-- What an escape or a plain character means. -/
inductive Atom where
  | char (c : Char)
  | set (s : CharSet)
  | anchor (a : Anchor)

/-- The condition named in braces after the escape for a word boundary. -/
def boundaryName? (name : List Char) : Option Anchor :=
  match String.ofList name with
  | "start" => some .wordStart
  | "end" => some .wordEnd
  | "start-half" => some .wordStartHalf
  | "end-half" => some .wordEndHalf
  | _ => none

/-- A word boundary, with or without a name in braces. -/
def boundaryEscape (s : List Char) : PatternReader Atom := do
  match s with
  | '\x7b' :: c :: t =>
    if c.isAlpha || c == '-' then
      let name := (c :: t).takeWhile (· != '\x7d')
      require (name.length < (c :: t).length)
      setRest ((c :: t).drop (name.length + 1))
      match boundaryName? name with
      | some a => return .anchor a
      | none => failure
    else return .anchor .wordBoundary
  | _ => return .anchor .wordBoundary

/-- What follows a backslash. -/
def escape (flags : Flags) : PatternReader Atom := do
  match ← rest with
  | [] => failure
  | c :: s =>
    setRest s
    match classEscape? flags.unicode c, controlEscape? c with
    | some chars, _ => return .set chars
    | _, some c => return .char c
    | none, none =>
      if c == 'x' then return .char (← hexEscape 2)
      else if c == 'u' then return .char (← hexEscape 4)
      else if c == 'U' then return .char (← hexEscape 8)
      else if c == 'A' then return .anchor .textStart
      else if c == 'z' then return .anchor .textEnd
      else if c == 'b' then boundaryEscape s
      else if c == 'B' then return .anchor .noWordBoundary
      else if c == '<' then return .anchor .wordStart
      else if c == '>' then return .anchor .wordEnd
      else
        require (decide (c.toNat < 128) && !c.isAlphanum)
        return .char c

/-- The named classes of ASCII characters. -/
def asciiClass? (name : List Char) : Option CharSet :=
  match String.ofList name with
  | "alnum" => some (.union (.range 'a' 'z') (.union (.range 'A' 'Z') (.range '0' '9')))
  | "alpha" => some (.union (.range 'a' 'z') (.range 'A' 'Z'))
  | "ascii" => some (.range '\x00' '\x7f')
  | "blank" => some (.ofList ['\t', ' '])
  | "cntrl" => some (.union (.range '\x00' '\x1f') (.single '\x7f'))
  | "digit" => some (.range '0' '9')
  | "graph" => some (.range '!' '~')
  | "lower" => some (.range 'a' 'z')
  | "print" => some (.range ' ' '~')
  | "punct" => some (.union (.range '!' '/') (.union (.range ':' '@')
      (.union (.range '[' '\x60') (.range '\x7b' '~'))))
  | "space" => some asciiBlank
  | "upper" => some (.range 'A' 'Z')
  | "word" => some asciiWord
  | "xdigit" => some (.union (.range '0' '9') (.union (.range 'a' 'f') (.range 'A' 'F')))
  | _ => none

/-- A named class `[:name:]` at the start of a text, and how many characters it takes. -/
def namedClass? (s : List Char) : Option (CharSet × Nat) := do
  match s with
  | '[' :: ':' :: s =>
    let negated := s.head? == some '^'
    let s := if negated then s.drop 1 else s
    let name := s.takeWhile (· != ':')
    match s.drop name.length with
    | ':' :: ']' :: _ =>
      let chars ← asciiClass? name
      return (if negated then .compl chars else chars, name.length + (if negated then 5 else 4))
    | _ => none
  | _ => none

/-- An operation between two parts of a class. -/
inductive SetOperation where
  | intersection
  | difference
  | symmetricDifference

/-- The result of an operation. -/
def SetOperation.apply : SetOperation → CharSet → CharSet → CharSet
  | .intersection, a, b => .inter a b
  | .difference, a, b => .inter a (.compl b)
  | .symmetricDifference, a, b => .union (.inter a (.compl b)) (.inter b (.compl a))

/-- The operation that two characters stand for. -/
def setOperation? : List Char → Option SetOperation
  | '&' :: '&' :: _ => some .intersection
  | '-' :: '-' :: _ => some .difference
  | '~' :: '~' :: _ => some .symmetricDifference
  | _ => none

/-- A class with its case variants, where case does not count. -/
def folded (flags : Flags) (s : CharSet) : CharSet := if flags.caseless then .caseless s else s

/-- One member of a class: a character or an escape. -/
def classAtom (flags : Flags) : PatternReader Atom := do
  match ← atItem flags with
  | [] => failure
  | '\\' :: s =>
    setRest s
    match ← escape flags with
    | .anchor _ => failure
    | atom => return atom
  | c :: s =>
    setRest s
    return .char c

/-- One member of a class or a range of characters. -/
def classItem (flags : Flags) : PatternReader CharSet := do
  let first ← classAtom flags
  let asSet : CharSet := match first with
    | .char c => .single c
    | .set s => s
    | .anchor _ => .none
  match ← atItem flags with
  | '-' :: s =>
    let after := if flags.extended then skipExtended (s.length + 1) s else s
    match after with
    | [] => failure
    | c :: _ =>
      if c == ']' || c == '-' then return asSet
      else
        setRest s
        match first, ← classAtom flags with
        | .char lo, .char hi =>
          require (decide (lo ≤ hi))
          return .range lo hi
        | _, _ => failure
  | [] => failure
  | _ => return asSet

/-- The literal hyphens and the literal bracket a class may start with. -/
def classStart (flags : Flags) : PatternReader CharSet := do
  let s ← atItem flags
  let hyphens := s.takeWhile (· == '-')
  if hyphens.isEmpty then
    match s with
    | ']' :: s =>
      setRest s
      return .single ']'
    | _ => return .none
  else
    setRest (s.drop hyphens.length)
    return .single '-'

/-- The members of a class up to its closing bracket. `outer` holds the operand and the operation that
wait for the members read now. -/
def classMembers (flags : Flags) :
    Nat → Bool → Option (CharSet × SetOperation) → CharSet → PatternReader CharSet
  | 0, _, _, _ => failure
  | fuel + 1, negated, outer, members => do
    let combined := match outer with
      | some (left, operation) => operation.apply left (folded flags members)
      | none => folded flags members
    match ← atItem flags with
    | [] => failure
    | ']' :: s =>
      setRest s
      return if negated then .compl combined else combined
    | '[' :: s =>
      match namedClass? ('[' :: s) with
      | some (chars, count) =>
        setRest (s.drop (count - 1))
        classMembers flags fuel negated outer (.union members chars)
      | none =>
        setRest s
        let inner ← nested fuel
        classMembers flags fuel negated outer (.union members inner)
    | s =>
      match setOperation? s with
      | some operation =>
        setRest (s.drop 2)
        classMembers flags fuel negated (some (combined, operation)) .none
      | none =>
        let item ← classItem flags
        classMembers flags fuel negated outer (.union members item)
where
  /-- A class inside a class, after its opening bracket. -/
  nested (fuel : Nat) : PatternReader CharSet := do
    let s ← atItem flags
    let negated := s.head? == some '^'
    if negated then setRest (s.drop 1)
    let start ← classStart flags
    classMembers flags fuel negated none start

/-- A class after its opening bracket. -/
def classBody (flags : Flags) : PatternReader CharSet := do
  let s ← atItem flags
  let negated := s.head? == some '^'
  if negated then setRest (s.drop 1)
  let start ← classStart flags
  classMembers flags (s.length + 1) negated none start

/-- A decimal number with white space around it. -/
def decimal (s : List Char) : Option (Nat × List Char) :=
  let s := s.dropWhile Text.isBlank
  let digits := s.takeWhile Char.isDigit
  let value := digits.foldl (fun n d => n * 10 + (d.toNat - '0'.toNat)) 0
  if digits.isEmpty || UInt32.size ≤ value then none
  else some (value, (s.drop digits.length).dropWhile Text.isBlank)

/-- The bounds of a counted repetition, after the opening brace. -/
def counts (s : List Char) : Option ((Nat × Option Nat) × List Char) := do
  let (least, s) ← decimal s
  match s with
  | '\x7d' :: s => return ((least, some least), s)
  | ',' :: s =>
    match s.dropWhile Text.isBlank with
    | '\x7d' :: s => return ((least, none), s)
    | s =>
      let (most, s) ← decimal s
      match s with
      | '\x7d' :: s => if least ≤ most then return ((least, some most), s) else none
      | _ => none
  | _ => none

/-- The bounds of the repetition at the start of a text, when there is one. -/
def repetition? : List Char → Option (Option ((Nat × Option Nat) × List Char))
  | '*' :: s => some (some ((0, none), s))
  | '+' :: s => some (some ((1, none), s))
  | '?' :: s => some (some ((0, some 1), s))
  | '\x7b' :: s => some (counts s)
  | _ => none

/-- One switch turned on or off. -/
def setFlag? (flags : Flags) (on : Bool) : Char → Option Flags
  | 'i' => some { flags with caseless := on }
  | 'm' => some { flags with multiline := on }
  | 's' => some { flags with dotAll := on }
  | 'U' => some { flags with swapGreed := on }
  | 'x' => some { flags with extended := on }
  | 'u' => some { flags with unicode := on }
  | 'R' => some flags
  | _ => none

/-- The switches before `)` or `:`; no switch occurs twice and a hyphen is followed by one. -/
def flagList (flags : Flags) (on : Bool) (seen : List Char) (afterHyphen : Bool) :
    List Char → Option (Flags × List Char)
  | [] => none
  | '-' :: s => if on then flagList flags false seen true s else none
  | c :: s =>
    if c == ')' || c == ':' then if afterHyphen then none else some (flags, c :: s)
    else if seen.contains c then none
    else
      match setFlag? flags on c with
      | some flags => flagList flags on (c :: seen) false s
      | none => none

/-- How a group starts. -/
inductive GroupStart where
  | directive (flags : Flags)
  | plain (flags : Flags)
  | numbered (index : Nat)

/-- A character that may stand in the name of a group, the first one included or not. -/
def isNameChar (first : Bool) (c : Char) : Bool :=
  c == '_' || c.isAlpha || (128 ≤ c.toNat && Text.isIdentifierStart c) ||
    (!first && (c.isDigit || c == '.' || c == '[' || c == ']' || Text.isDecimalDigit c))

/-- The name of a group up to `>`. -/
def groupName (s : List Char) : PatternReader GroupStart := do
  let name := s.takeWhile (· != '>')
  require (name.length < s.length)
  require (match name with
    | [] => false
    | c :: cs => isNameChar true c && cs.all (isNameChar false))
  let st ← get
  require (!st.names.any (·.1 == String.ofList name))
  let index := st.groups + 1
  modify fun st => { st with
    rest := s.drop (name.length + 1)
    groups := index
    names := st.names ++ [(String.ofList name, index)] }
  return .numbered index

/-- What follows an opening parenthesis. -/
def groupStart (flags : Flags) : PatternReader GroupStart := do
  match ← rest with
  | '?' :: 'P' :: '<' :: s => groupName s
  | '?' :: '<' :: s => groupName s
  | '?' :: s =>
    match flagList flags true [] false s with
    | some (flags', ')' :: t) =>
      require (t.length + 1 < s.length)
      setRest t
      return .directive flags'
    | some (flags', _ :: t) =>
      setRest t
      return .plain flags'
    | _ => failure
  | _ =>
    let index := (← get).groups + 1
    modify fun st => { st with groups := index }
    return .numbered index

/-- The pattern of an atom. -/
def atomPattern (flags : Flags) : Atom → Pattern
  | .char c => .set (folded flags (.single c))
  | .set s => .set s
  | .anchor a => .anchor a

/-- One character of the notation that is neither group, class nor operator. -/
def primitive (flags : Flags) : PatternReader Pattern := do
  match ← rest with
  | [] => failure
  | '\\' :: s =>
    setRest s
    return atomPattern flags (← escape flags)
  | '.' :: s =>
    setRest s
    return .set (if flags.dotAll then .all else .compl (.single '\n'))
  | '^' :: s =>
    setRest s
    return .anchor (if flags.multiline then .lineStart else .textStart)
  | '$' :: s =>
    setRest s
    return .anchor (if flags.multiline then .lineEnd else .textEnd)
  | c :: s =>
    setRest s
    return atomPattern flags (.char c)

/-- The items read last first; a directive leaves `none`. -/
def sequence (items : List (Option Pattern)) : Pattern :=
  Pattern.cat (items.reverse.filterMap id)

/-- Alternatives up to a closing parenthesis or the end. `branches` are the alternatives before, `items`
the items of this one, both last first. -/
def alternatives : Nat → Flags → List Pattern → List (Option Pattern) → PatternReader Pattern
  | 0, _, _, _ => failure
  | fuel + 1, flags, branches, items => do
    match ← atItem flags with
    | [] => return Pattern.choice (sequence items :: branches).reverse
    | ')' :: _ => return Pattern.choice (sequence items :: branches).reverse
    | '|' :: s =>
      setRest s
      alternatives fuel flags (sequence items :: branches) []
    | '[' :: s =>
      setRest s
      let chars ← classBody flags
      alternatives fuel flags branches (some (.set chars) :: items)
    | '(' :: s =>
      setRest s
      match ← groupStart flags with
      | .directive flags' => alternatives fuel flags' branches (none :: items)
      | .plain flags' =>
        let body ← enclosed fuel flags'
        alternatives fuel flags branches (some body :: items)
      | .numbered index =>
        let body ← enclosed fuel flags
        alternatives fuel flags branches (some (.group index body) :: items)
    | s =>
      match repetition? s, items with
      | none, _ =>
        let item ← primitive flags
        alternatives fuel flags branches (some item :: items)
      | some (some ((least, most), s)), some body :: items =>
        let fewer := s.head? == some '?'
        setRest (if fewer then s.drop 1 else s)
        alternatives fuel flags branches
          (some (.repeated body least most (fewer == flags.swapGreed)) :: items)
      | _, _ => failure
where
  /-- The alternatives of a group and its closing parenthesis. -/
  enclosed (fuel : Nat) (flags : Flags) : PatternReader Pattern := do
    let body ← alternatives fuel flags [] []
    match ← rest with
    | ')' :: s =>
      setRest s
      return body
    | _ => failure

end PatternReader

/-- The pattern a text denotes and the numbers of its named groups. -/
def parse? (text : String) : Option (Pattern × List (String × Nat)) :=
  let s := text.toList
  match (PatternReader.alternatives (s.length + 1) Flags.initial [] []).run ⟨s, 0, []⟩ with
  | some (pattern, st) => if st.rest.isEmpty then some (pattern, st.names) else none
  | none => none

end SpaMigration.Pattern
