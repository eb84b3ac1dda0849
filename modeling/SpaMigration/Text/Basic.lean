/-!
# Texts as lists of characters

Source texts and paths are worked on as lists of characters. This module has the searches and cuts
the rest of the library is written with. Offsets are counted in bytes of UTF-8: `byteSize` is that
measure, and `splitAtByte?` and `slice?` cut a text at such offsets, failing where an offset lies
inside a character or past the end.
-/
namespace SpaMigration.Text

/-- What follows `start` in `s`, when `s` begins with it. -/
def dropPrefix? : (start s : List Char) → Option (List Char)
  | [], s => some s
  | _ :: _, [] => none
  | p :: ps, c :: cs => if p = c then dropPrefix? ps cs else none

/-- What precedes `ending` in `s`, when `s` ends with it. -/
def dropSuffix? (ending s : List Char) : Option (List Char) :=
  (dropPrefix? ending.reverse s.reverse).map List.reverse

/-- `s` begins with `start`. -/
def startsWith (s start : List Char) : Bool :=
  (dropPrefix? start s).isSome

/-- `s` ends with `ending`. -/
def endsWith (s ending : List Char) : Bool :=
  startsWith s.reverse ending.reverse

/-- `part` occurs in `s` as a contiguous stretch. -/
def occursIn (part : List Char) : List Char → Bool
  | [] => part.isEmpty
  | c :: cs => startsWith (c :: cs) part || occursIn part cs

/-- The pieces between the separators; there is always at least one. -/
def splitOn (separator : Char) : List Char → List (List Char)
  | [] => [[]]
  | c :: cs =>
    if c = separator then [] :: splitOn separator cs
    else
      match splitOn separator cs with
      | piece :: pieces => (c :: piece) :: pieces
      | [] => [[c]]

/-- Everything before the last separator and everything after it, when there is one. -/
def splitLast? (separator : Char) (s : List Char) : Option (List Char × List Char) :=
  let after := (s.reverse.takeWhile (· != separator)).reverse
  match s.reverse.dropWhile (· != separator) with
  | [] => none
  | _ :: before => some (before.reverse, after)

/-- The number of bytes a text occupies in UTF-8. -/
def byteSize : List Char → Nat
  | [] => 0
  | c :: cs => c.utf8Size + byteSize cs

@[simp] theorem byteSize_nil : byteSize [] = 0 := rfl

@[simp] theorem byteSize_cons (c : Char) (cs : List Char) :
    byteSize (c :: cs) = c.utf8Size + byteSize cs := rfl

@[simp] theorem byteSize_append (s t : List Char) :
    byteSize (s ++ t) = byteSize s + byteSize t := by
  induction s with
  | nil => simp
  | cons c cs ih => simp [ih, Nat.add_assoc]

/-- The first `n` bytes and the rest; `none` when that cut is inside a character or past the end. -/
def splitAtByte? : Nat → List Char → Option (List Char × List Char)
  | 0, s => some ([], s)
  | _ + 1, [] => none
  | n + 1, c :: cs =>
    if c.utf8Size ≤ n + 1 then
      (splitAtByte? (n + 1 - c.utf8Size) cs).map fun parts => (c :: parts.1, parts.2)
    else none

/-- The bytes from `lo` up to `hi` as a text, when both are offsets of characters of `s`. -/
def slice? (s : List Char) (lo hi : Nat) : Option (List Char) :=
  if lo ≤ hi then do
    let (_, tail) ← splitAtByte? lo s
    let (middle, _) ← splitAtByte? (hi - lo) tail
    return middle
  else none

/-- The texts one after another with `separator` between them. -/
def joinWith (separator : List Char) : List (List Char) → List Char
  | [] => []
  | [s] => s
  | s :: t :: rest => s ++ separator ++ joinWith separator (t :: rest)

/-- Keeps the first of each group of equal elements. -/
def dedup {α : Type} [BEq α] (xs : List α) : List α :=
  xs.foldl (fun kept x => if kept.contains x then kept else kept ++ [x]) []

end SpaMigration.Text
