import SpaMigration.Number.Binary64

/-!
# Shares

How much of a whole something is, as a quotient of two floating-point numbers. A share of nothing is
infinite or undefined, and shares are written as percentages.
-/
namespace SpaMigration

/-- The outcome of a division. -/
inductive Share where
  | finite (value : Binary64)
  /-- Past the largest number. -/
  | infinite (negative : Bool)
  /-- No number at all. -/
  | undefined
  deriving DecidableEq, Repr

namespace Share

/-- No part of the whole. -/
def nothing : Share := .finite .zero

/-- A value with the sign of an outcome, infinite when it is past the largest number. -/
def ofSize (negative : Bool) (size : Option Binary64) : Share :=
  match size with
  | some value => .finite (value.withSign negative)
  | none => .infinite negative

/-- The quotient of two numbers, rounded. -/
def ofQuotient (part whole : Binary64) : Share :=
  let negative := part.negative != whole.negative
  if whole.mantissa = 0 then if part.mantissa = 0 then .undefined else .infinite negative
  else ofSize negative (part.div? whole)

/-- The share of a count in a total; nothing has no parts. -/
def ofCounts (part total : Nat) : Share :=
  if total = 0 then nothing else ofSize false (Binary64.ofRatio? part total)

/-- The share in hundredths of the whole. -/
def inHundredths : Share → Share
  | .finite value => ofSize value.negative (Binary64.ofRatio? (value.ratio.1 * 100) value.ratio.2)
  | .infinite negative => .infinite negative
  | .undefined => .undefined

/-- The share with a fixed number of places. -/
def toFixed (places : Nat) : Share → String
  | .finite value => value.toFixed places
  | .infinite negative => if negative then "-inf" else "inf"
  | .undefined => "NaN"

/-- The share as a percentage with a fixed number of places. -/
def percentage (places : Nat) (share : Share) : String := share.inHundredths.toFixed places ++ "%"

end Share

end SpaMigration
