/-!
# Decimal integers in 64 bits

`readInt64` reads a signed decimal integer: an optional sign and at least one digit, nothing
else, within the range of 64 signed bits. The first fault from the left decides the error.
-/

namespace Irrigation.Text

/-- Why a text is no integer in range. -/
inductive IntegerError
  | empty
  | invalidDigit
  | tooLarge
  | tooSmall
  deriving DecidableEq, Repr

/-- The text of an integer error. -/
def IntegerError.message : IntegerError → String
  | .empty => "cannot parse integer from empty string"
  | .invalidDigit => "invalid digit found in string"
  | .tooLarge => "number too large to fit in target type"
  | .tooSmall => "number too small to fit in target type"

/-- The value of a decimal digit. -/
def digitValue? (c : Char) : Option Nat :=
  if '0' ≤ c ∧ c ≤ '9' then some (c.toNat - '0'.toNat) else none

/-- Reads digits after `value`; `bound` is the largest value allowed. A digit that would pass
the bound is an error even if a later character is no digit. -/
def readDigits (bound : Nat) (beyond : IntegerError) : Nat → List Char → Except IntegerError Nat
  | value, [] => .ok value
  | value, c :: rest =>
    match digitValue? c with
    | none => .error .invalidDigit
    | some d =>
      if value * 10 + d ≤ bound then readDigits bound beyond (value * 10 + d) rest
      else .error beyond

/-- Reads a signed integer of 64 bits. -/
def readInt64 (text : String) : Except IntegerError Int :=
  match text.toList with
  | [] => .error .empty
  | ['-'] => .error .invalidDigit
  | ['+'] => .error .invalidDigit
  | '-' :: digits => (readDigits (UInt64.size / 2) .tooSmall 0 digits).map fun n => -(n : Int)
  | '+' :: digits => (readDigits (UInt64.size / 2 - 1) .tooLarge 0 digits).map Int.ofNat
  | digits => (readDigits (UInt64.size / 2 - 1) .tooLarge 0 digits).map Int.ofNat

end Irrigation.Text
