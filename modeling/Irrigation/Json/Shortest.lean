import Irrigation.Json.Binary64

/-!
# Shortest decimal text

`digits` finds the fewest decimal digits that lie nearer to a number than to any other of the
64-bit format: it tries the grids of 1, 2, … 17 digits, of each grid the two neighbours of the
number. `Binary64.text` lays them out: positional from the fifth place after the point to the
sixteenth before it, with an exponent otherwise.
-/

namespace Irrigation.Json.Binary64

/-- Decimal digits and the power of ten of the last one. -/
structure Decimal where
  digits : Nat
  power : Int
  deriving DecidableEq, Repr

/-- `num / den / 10 ^ k` as a quotient of whole numbers. -/
def scaleTen (num den : Nat) (k : Int) : Nat × Nat :=
  if k < 0 then (num * Nat.pow 10 (-k).toNat, den) else (num, den * Nat.pow 10 k.toNat)

/-- The numbers that round to `x` lie between these, in quarters of its last place: the upper
half place, and the lower one, which is smaller just above a power of two. -/
def halfPlaces (x : Binary64) : Nat × Nat :=
  (2, if x.significand = Nat.pow 2 52 ∧ x.exponent ≠ -1074 then 1 else 2)

/-- Whether the decimal `d · 10 ^ k` reads back as `x`: it lies between the two half places,
ends included if the significand is even. -/
def readsBack (x : Binary64) (d : Nat) (k : Int) : Bool :=
  let (up, down) := x.halfPlaces
  let q := x.exponent - 2
  -- both sides in units of 2 ^ q, times a common denominator
  let (n, den) := if q < 0 then (d * Nat.pow 2 (-q).toNat, 1) else (d, Nat.pow 2 q.toNat)
  let (n, den) := if k < 0 then (n, den * Nat.pow 10 (-k).toNat) else (n * Nat.pow 10 k.toNat, den)
  let low := (4 * x.significand - down) * den
  let high := (4 * x.significand + up) * den
  if x.significand % 2 = 0 then low ≤ n && n ≤ high else low < n && n < high

/-- The power of ten just above `x`: the least `p` with `x < 10 ^ p`. -/
def magnitude (x : Binary64) : Int :=
  let (num, den) := x.ratio
  let guess := ((num.log2 : Int) - den.log2 - 1) * 30103 / 100000
  let below (p : Int) : Bool :=
    let (n, d) := scaleTen num den p
    n < d
  if below guess then guess
  else if below (guess + 1) then guess + 1
  else guess + 2

/-- The nearest decimal to `x` on the grid of `places` digits, if it reads back. -/
def onGrid (x : Binary64) (places : Nat) : Option Decimal :=
  let k := x.magnitude - places
  let (n, d) := scaleTen x.ratio.1 x.ratio.2 k
  let below := n / d
  let twice := 2 * (n % d)
  let nearest := if twice < d then below else if d < twice then below + 1 else below + below % 2
  let other := if nearest = below then below + 1 else below
  if x.readsBack nearest k then some ⟨nearest, k⟩
  else if x.readsBack other k then some ⟨other, k⟩
  else none

/-- The first grid from `places` on that has a decimal for `x`; 17 digits always do. -/
def searchGrids (x : Binary64) : Nat → Nat → Decimal
  | 0, places => ⟨x.significand, places⟩
  | more + 1, places => (x.onGrid places).getD (searchGrids x more (places + 1))

/-- The fewest digits that read back. -/
def digits (x : Binary64) : Decimal := searchGrids x 17 1

/-- Text of digits whose last has the given power of ten. -/
def layOut (digits : List Char) (power : Int) : String :=
  let count := digits.length
  let point := (count : Int) + power
  if 0 ≤ power ∧ point ≤ 16 then
    String.ofList (digits ++ List.replicate power.toNat '0') ++ ".0"
  else if 0 < point ∧ point ≤ 16 then
    String.ofList (digits.take point.toNat) ++ "." ++ String.ofList (digits.drop point.toNat)
  else if -5 < point ∧ point ≤ 0 then
    "0." ++ String.ofList (List.replicate (-point).toNat '0' ++ digits)
  else
    let e := point - 1
    let exponent := (if e < 0 then "e-" else "e+") ++ toString e.natAbs
    match digits with
    | [d] => String.ofList [d] ++ exponent
    | d :: rest => String.ofList (d :: '.' :: rest) ++ exponent
    | [] => exponent

/-- Drops zeros at the end of the digits. -/
def trimZeros : Nat → Nat → Int → Decimal
  | 0, n, k => ⟨n, k⟩
  | steps + 1, n, k => if n % 10 = 0 ∧ n ≠ 0 then trimZeros steps (n / 10) (k + 1) else ⟨n, k⟩

/-- The shortest text of a number. -/
def text (x : Binary64) : String :=
  let sign := if x.negative then "-" else ""
  if x.isZero then sign ++ "0.0"
  else
    let d := x.digits
    let d := trimZeros 20 d.digits d.power
    sign ++ layOut (toString d.digits).toList d.power

end Irrigation.Json.Binary64
