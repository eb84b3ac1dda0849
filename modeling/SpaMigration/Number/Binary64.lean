/-!
# Binary floating point, exactly

A finite number of the 64-bit binary format is a sign, a whole mantissa below `2 ^ 53` and a power
of two. Rounding a quotient to that format is done here in whole numbers: the nearest representable
value, and of two equally near ones the one with the even mantissa. Products, quotients and texts
with a fixed number of places are built on it.
-/
namespace SpaMigration

/-- The value `± mantissa * 2 ^ exponent`. -/
structure Binary64 where
  negative : Bool
  mantissa : Nat
  exponent : Int
  deriving DecidableEq, Repr, Inhabited

/-- The whole number nearest to `num / den`; a half goes to the even neighbour. -/
def roundDiv (num den : Nat) : Nat :=
  let quotient := num / den
  let twice := 2 * (num % den)
  if twice < den then quotient
  else if twice = den then quotient + quotient % 2
  else quotient + 1

namespace Binary64

/-- Zero without a sign. -/
def zero : Binary64 := ⟨false, 0, 0⟩

/-- The two whole numbers whose quotient is `num / den / 2 ^ exponent`. -/
def scaled (num den : Nat) (exponent : Int) : Nat × Nat :=
  if exponent < 0 then (num <<< exponent.natAbs, den) else (num, den <<< exponent.natAbs)

/-- The exponent that gives `num / den` a mantissa of 53 bits, or the least exponent there is. -/
def exponentFor (num den : Nat) : Int :=
  let guess : Int := (num.log2 : Int) - (den.log2 : Int) - 52
  let (n, d) := scaled num den guess
  max (-1074) (if n / d < 1 <<< 52 then guess - 1 else guess)

/-- The nearest representable value to `num / den`, or `none` when that is past the largest. -/
def ofRatio? (num den : Nat) : Option Binary64 :=
  if num = 0 then some zero
  else
    let exponent := exponentFor num den
    let (n, d) := scaled num den exponent
    let mantissa := roundDiv n d
    let (mantissa, exponent) :=
      if mantissa = 1 <<< 53 then (1 <<< 52, exponent + 1) else (mantissa, exponent)
    if 971 < exponent then none else some ⟨false, mantissa, exponent⟩

/-- The value without its sign, as a quotient of two whole numbers. -/
def ratio (x : Binary64) : Nat × Nat :=
  if x.exponent < 0 then (x.mantissa, 1 <<< x.exponent.natAbs)
  else (x.mantissa <<< x.exponent.natAbs, 1)

/-- The same size with the given sign. -/
def withSign (negative : Bool) (x : Binary64) : Binary64 := { x with negative }

/-- The product, rounded. -/
def mul? (x y : Binary64) : Option Binary64 :=
  (ofRatio? (x.ratio.1 * y.ratio.1) (x.ratio.2 * y.ratio.2)).map (withSign (x.negative != y.negative))

/-- The quotient by a number other than zero, rounded. -/
def div? (x y : Binary64) : Option Binary64 :=
  (ofRatio? (x.ratio.1 * y.ratio.2) (x.ratio.2 * y.ratio.1)).map (withSign (x.negative != y.negative))

/-- A whole number as decimal digits, with zeros in front up to `width`. -/
def paddedDigits (width n : Nat) : String :=
  let digits := Nat.toDigits 10 n
  String.ofList (List.replicate (width - digits.length) '0' ++ digits)

/-- The value with `places` digits after the point, to nearest and a half to even. -/
def toFixed (places : Nat) (x : Binary64) : String :=
  let unit := Nat.pow 10 places
  let units := roundDiv (x.ratio.1 * unit) x.ratio.2
  let whole := toString (units / unit)
  let sign := if x.negative then "-" else ""
  if places = 0 then sign ++ whole
  else sign ++ whole ++ "." ++ paddedDigits places (units % unit)

end Binary64

end SpaMigration
