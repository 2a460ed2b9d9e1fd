import Irrigation.Json.Shortest
import Irrigation.Text.Integer

/-!
# Numbers of a JSON document

A number is a whole number if it is written as one and fits 64 bits, signed or unsigned;
every other number is a floating point number. `Number.text` writes it.
-/

namespace Irrigation.Json

/-- A number of a document. -/
inductive Number
  | whole (n : Int)
  | real (x : Binary64)
  deriving DecidableEq, Repr

namespace Number

/-- The number as an unsigned integer of 64 bits. -/
def natural? : Number → Option UInt64
  | .whole n => if 0 ≤ n ∧ n < UInt64.size then some (UInt64.ofNat n.toNat) else none
  | .real _ => none

/-- The text of a number. -/
def text : Number → String
  | .whole n => toString n
  | .real x => x.text

/-- The number of an unsigned integer. -/
def ofNatural (n : UInt64) : Number := .whole n.toNat

@[simp] theorem natural?_ofNatural (n : UInt64) : (ofNatural n).natural? = some n := by
  have h := n.toNat_lt
  simp [ofNatural, natural?]
  omega

end Number

/-! ## Reading -/

/-- Why a document cannot be read further. -/
inductive Fault
  /-- The text breaks off. -/
  | incomplete
  /-- The text is no JSON. -/
  | malformed
  deriving DecidableEq, Repr

/-- The digits at the front of a text, and what follows them. -/
def spanDigits : List Char → List Nat × List Char
  | [] => ([], [])
  | c :: rest =>
    match Text.digitValue? c with
    | some d => let (ds, rest) := spanDigits rest; (d :: ds, rest)
    | none => ([], c :: rest)

/-- Takes digits into a significand while it fits 64 bits. Returns the significand and the
number of digits that were left over. -/
def takeDigits : Nat → List Nat → Nat × Nat
  | n, [] => (n, 0)
  | n, d :: rest =>
    if n * 10 + d < UInt64.size then takeDigits (n * 10 + d) rest else (n, rest.length + 1)

/-- The parts of a number as it is written. -/
structure Numeral where
  negative : Bool
  whole : List Nat
  fraction : Option (List Nat)
  exponent : Option (Bool × List Nat)
  deriving DecidableEq, Repr

namespace Numeral

/-- The exponent that is written, with its sign. -/
def shift (n : Numeral) : Int :=
  match n.exponent with
  | none => 0
  | some (negative, ds) =>
    let e : Nat := ds.foldl (fun e d => e * 10 + d) 0
    if negative then -(e : Int) else e

/-- The number that a numeral stands for; `none` if it is beyond the largest. Digits that do not
fit the significand are dropped. -/
def value (n : Numeral) : Option Number :=
  let (significand, dropped) := takeDigits 0 n.whole
  match n.fraction, n.exponent with
  | none, none =>
    if dropped = 0 then
      if !n.negative then some (.whole significand)
      else if significand ≠ 0 ∧ significand ≤ UInt64.size / 2 then some (.whole (-(significand : Int)))
      else (Binary64.ofDecimal true significand 0).map .real
    else (Binary64.ofDecimal n.negative significand dropped).map .real
  | fraction, _ =>
    let ds := fraction.getD []
    let (significand, lost) := takeDigits significand ds
    let e : Int := (dropped : Int) - ((ds.length - lost : Nat) : Int)
    (Binary64.ofDecimal n.negative significand (e + n.shift)).map .real

end Numeral

/-- The outcome of reading a number: what its reader gets, and where a reader that only skips it
goes on. The two differ where the text breaks off, and for a number that is too large. -/
structure NumberScan where
  strict : Except Fault Number
  loose : Except Fault (List Char)

/-- Reads the exponent of a number after its `e`. -/
def scanExponent (n : Numeral) (cs : List Char) : NumberScan :=
  let (negative, cs) :=
    match cs with
    | '+' :: rest => (false, rest)
    | '-' :: rest => (true, rest)
    | _ => (false, cs)
  match spanDigits cs with
  | ([], []) => ⟨.error .incomplete, .error .malformed⟩
  | ([], _) => ⟨.error .malformed, .error .malformed⟩
  | (ds, rest) =>
    let n := { n with exponent := some (negative, ds) }
    ⟨(n.value.map Except.ok).getD (.error .malformed), .ok rest⟩

/-- Reads what may follow the fraction of a number. -/
def scanAfterFraction (n : Numeral) (cs : List Char) : NumberScan :=
  let ended : NumberScan := ⟨(n.value.map Except.ok).getD (.error .malformed), .ok cs⟩
  match cs with
  | 'e' :: rest => scanExponent n rest
  | 'E' :: rest => scanExponent n rest
  | _ => ended

/-- Reads what may follow the whole digits of a number. -/
def scanAfterWhole (n : Numeral) : List Char → NumberScan
  | '.' :: rest =>
    match spanDigits rest with
    | ([], []) => ⟨.error .incomplete, .error .malformed⟩
    | ([], _) => ⟨.error .malformed, .error .malformed⟩
    | (ds, rest) => scanAfterFraction { n with fraction := some ds } rest
  | cs => scanAfterFraction n cs

/-- Reads a number after its sign. -/
def scanUnsigned (negative : Bool) (cs : List Char) : NumberScan :=
  match spanDigits cs with
  | ([], []) => ⟨.error .incomplete, .error .malformed⟩
  | ([], _) => ⟨.error .malformed, .error .malformed⟩
  | (0 :: _ :: _, _) => ⟨.error .malformed, .error .malformed⟩
  | (ds, rest) => scanAfterWhole ⟨negative, ds, none, none⟩ rest

/-- Reads a number. -/
def scanNumber : List Char → NumberScan
  | '-' :: rest => scanUnsigned true rest
  | cs => scanUnsigned false cs

end Irrigation.Json
