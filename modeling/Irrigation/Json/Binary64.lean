/-!
# Binary floating point numbers

The finite numbers of the 64-bit binary format, as sign, significand and exponent. `round` takes
an exact quotient to the nearest of them, ties to the even significand, and `product`,
`quotient` are the exact results rounded once. All is done in whole numbers.
-/

namespace Irrigation.Json

/-- The number `±significand · 2 ^ exponent`. The significand has at most 53 bits, and fewer
only at the least exponent, -1074. -/
structure Binary64 where
  negative : Bool
  significand : Nat
  exponent : Int
  deriving DecidableEq, Repr

namespace Binary64

/-- Zero. -/
def zero : Binary64 := ⟨false, 0, -1074⟩

/-- Whether the number is zero, of either sign. -/
def isZero (x : Binary64) : Bool := x.significand == 0

/-- The same number with the given sign. -/
def withSign (x : Binary64) (negative : Bool) : Binary64 := { x with negative }

/-- The quotient of two numbers, rounded to the nearest whole number, ties to even. -/
def roundDiv (num den : Nat) : Nat :=
  let q := num / den
  let twice := 2 * (num % den)
  if twice < den then q
  else if den < twice then q + 1
  else q + q % 2

/-- `num / den / 2 ^ e` as a quotient of whole numbers. -/
def scale (num den : Nat) (e : Int) : Nat × Nat :=
  if e < 0 then (num * Nat.pow 2 (-e).toNat, den) else (num, den * Nat.pow 2 e.toNat)

/-- The exponent at which a quotient has a significand of 53 bits, or the least one. -/
def exponentFor (num den : Nat) : Int :=
  let guess := (num.log2 : Int) - den.log2 - 52
  let (n, d) := scale num den guess
  let fitted := if n / d < Nat.pow 2 52 then guess - 1 else guess
  max fitted (-1074)

/-- The nearest number to `num / den`, or `none` if that is beyond the largest. -/
def round (num den : Nat) : Option Binary64 :=
  let e := exponentFor num den
  let (n, d) := scale num den e
  let m := roundDiv n d
  let (m, e) := if m = Nat.pow 2 53 then (Nat.pow 2 52, e + 1) else (m, e)
  if e ≤ 971 then some ⟨false, m, e⟩ else none

/-- The nearest number to a whole number. -/
def ofNat (n : Nat) : Option Binary64 := round n 1

/-- The size of a number as a quotient. -/
def ratio (x : Binary64) : Nat × Nat :=
  if x.exponent < 0 then (x.significand, Nat.pow 2 (-x.exponent).toNat)
  else (x.significand * Nat.pow 2 x.exponent.toNat, 1)

/-- The product of the sizes of two numbers, rounded. -/
def product (x y : Binary64) : Option Binary64 :=
  round (x.ratio.1 * y.ratio.1) (x.ratio.2 * y.ratio.2)

/-- The quotient of the sizes of two numbers, rounded; the second is not zero. -/
def quotient (x y : Binary64) : Option Binary64 :=
  round (x.ratio.1 * y.ratio.2) (x.ratio.2 * y.ratio.1)

/-- The nearest number to a power of ten. -/
def powerOfTen (k : Nat) : Option Binary64 := ofNat (Nat.pow 10 k)

/-- Scales by a power of ten, as the number format reads a decimal: the significand is rounded
first, then one power of ten up to the 308th is multiplied in or divided out, and a smaller one
is taken in several steps. The steps end once the number is zero, which takes three at most.
`none` is a number beyond the largest. -/
def scaleByTen : Nat → Binary64 → Int → Option Binary64
  | 0, x, _ => some x
  | steps + 1, x, e =>
    if 308 < e.natAbs then
      if x.isZero then some x
      else if 0 ≤ e then none
      else
        match (powerOfTen 308).bind x.quotient with
        | some y => scaleByTen steps y (e + 308)
        | none => none
    else
      let power := powerOfTen e.natAbs
      if 0 ≤ e then power.bind x.product else power.bind x.quotient

/-- The number read from a decimal significand of 64 bits and a power of ten. -/
def ofDecimal (negative : Bool) (significand : Nat) (exponent : Int) : Option Binary64 :=
  match ofNat significand with
  | some x => (scaleByTen 6 x exponent).map (·.withSign negative)
  | none => none

end Binary64

end Irrigation.Json
