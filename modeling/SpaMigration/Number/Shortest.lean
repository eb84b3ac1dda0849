import SpaMigration.Number.Binary64

/-!
# The shortest decimal of a binary number

Of all decimals that round back to a binary number, the one with the fewest digits, and of several
with that many the nearest. It is found by trying one digit, two digits and so on: on each grid only
the two neighbours of the number itself can qualify.
-/
namespace SpaMigration

/-- The value `digits * 10 ^ exponent`. -/
structure Decimal where
  digits : Nat
  exponent : Int
  deriving DecidableEq, Repr

namespace Decimal

/-- The two whole numbers whose quotient is the decimal. -/
def ratio (d : Decimal) : Nat × Nat :=
  if d.exponent < 0 then (d.digits, Nat.pow 10 d.exponent.natAbs)
  else (d.digits * Nat.pow 10 d.exponent.natAbs, 1)

end Decimal

namespace Binary64

/-- `a ≤ b` for quotients. -/
def ratioLe (a b : Nat × Nat) : Bool := decide (a.1 * b.2 ≤ b.1 * a.2)

/-- The least and the greatest quotient that may round to `x`. -/
def roundingBounds (x : Binary64) : (Nat × Nat) × (Nat × Nat) :=
  let lowerGap := if x.mantissa = 1 <<< 52 ∧ -1074 < x.exponent then 1 else 2
  let quarter (n : Nat) : Nat × Nat :=
    if x.exponent < 2 then (n, 1 <<< (2 - x.exponent).natAbs) else (n <<< (x.exponent - 2).natAbs, 1)
  (quarter (4 * x.mantissa - lowerGap), quarter (4 * x.mantissa + 2))

/-- The decimal rounds to `x`: the bounds themselves count exactly when the mantissa is even. -/
def readsBack (x : Binary64) (d : Decimal) : Bool :=
  let (lo, hi) := x.roundingBounds
  if x.mantissa % 2 = 0 then ratioLe lo d.ratio && ratioLe d.ratio hi
  else !ratioLe d.ratio lo && !ratioLe hi d.ratio

/-- The number of digits before the point of `num / den`; zero or less below one tenth. -/
def magnitude (num den : Nat) : Int :=
  if den ≤ num then ((Nat.toDigits 10 (num / den)).length : Int)
  else 1 - ((Nat.toDigits 10 ((den - 1) / num)).length : Int)

/-- The neighbour of `x` with `count` digits that reads back, the nearer one if both do. -/
def withDigits? (x : Binary64) (point : Int) (count : Nat) : Option Decimal :=
  let exponent := point - (count : Int)
  let (num, den) := x.ratio
  let (num, den) :=
    if exponent < 0 then (num * Nat.pow 10 exponent.natAbs, den) else (num, den * Nat.pow 10 exponent.natAbs)
  let below : Decimal := ⟨num / den, exponent⟩
  let above : Decimal := ⟨num / den + 1, exponent⟩
  let nearest : Decimal := ⟨roundDiv num den, exponent⟩
  if x.readsBack nearest then some nearest
  else if x.readsBack below then some below
  else if x.readsBack above then some above
  else none

/-- The first of one to seventeen digits at which a neighbour reads back. -/
def shortest (x : Binary64) : Decimal :=
  if x.mantissa = 0 then ⟨0, 0⟩
  else
    let point := magnitude x.ratio.1 x.ratio.2
    let found := (List.range 17).findSome? fun n => x.withDigits? point (n + 1)
    found.getD ⟨x.mantissa, x.exponent⟩

end Binary64

end SpaMigration
