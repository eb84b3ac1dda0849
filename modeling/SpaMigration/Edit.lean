import SpaMigration.Text.Basic

/-!
# Edits of a text

An edit replaces a range of bytes. A list of edits is put in order of the ranges and applied in one pass
over the text: an edit that starts before the end of the one applied last, or reaches past the end of the
text, is dropped. Applying fails where a range cuts through a character.
-/
namespace SpaMigration

/-- Replaces the bytes from `lo` up to `hi`. -/
structure Edit where
  lo : Nat
  hi : Nat
  text : List Char
  deriving DecidableEq, Repr

namespace Edit

/-- The edit comes no later than the other: its range starts earlier, or ends no later when both start at
the same place. -/
def notAfter (a b : Edit) : Bool := a.lo < b.lo || (a.lo == b.lo && a.hi ≤ b.hi)

/-- Puts an edit in front of the first one that it does not come after. -/
def insert (edit : Edit) : List Edit → List Edit
  | [] => [edit]
  | other :: rest => if edit.notAfter other then edit :: other :: rest else other :: insert edit rest

/-- The edits in order of their ranges; edits of one range stay in the order given. -/
def sort : List Edit → List Edit
  | [] => []
  | edit :: rest => insert edit (sort rest)

/-- The text from the byte `cursor` on with edits applied that are in order already. -/
def applySorted? (text : List Char) : Nat → List Edit → Option (List Char)
  | cursor, [] => (Text.splitAtByte? cursor text).map (·.2)
  | cursor, edit :: rest =>
    if edit.lo < cursor || Text.byteSize text < edit.hi then applySorted? text cursor rest
    else do
      let kept ← Text.slice? text cursor edit.lo
      let tail ← applySorted? text edit.hi rest
      return kept ++ edit.text ++ tail

/-- The text with the edits applied; `none` when one that is applied cuts through a character. -/
def applyAll? (text : List Char) (edits : List Edit) : Option (List Char) :=
  applySorted? text 0 (sort edits)

end Edit

end SpaMigration
