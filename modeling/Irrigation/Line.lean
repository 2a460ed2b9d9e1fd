/-!
# Lines of a chip

A chip hands out numbered lines. A line is driven high or low, and the polarity of a device
says which of the two means "active". The main definitions are `Offset`, `Direction`,
`Polarity` and `Polarity.level`; `Wiring` collects the numbers of the irrigation board.
-/

namespace Irrigation

/-- The number of a line on its chip. -/
abbrev Offset := UInt32

/-- Direction of a line request. -/
inductive Direction
  | input
  | output
  deriving DecidableEq, Repr

/-- The word that a status line shows for a direction. -/
def Direction.name : Direction → String
  | .input => "Input"
  | .output => "Output"

/-- Which electrical level means "active". -/
inductive Polarity
  | activeLow
  | activeHigh
  deriving DecidableEq, Repr

namespace Polarity

/-- The electrical level (`true` is high) that stands for `active`. -/
def level : Polarity → Bool → Bool
  | .activeLow, active => !active
  | .activeHigh, active => active

/-- The word stored in files and shown to the operator. -/
def label : Polarity → String
  | .activeLow => "Active Low"
  | .activeHigh => "Active High"

/-- The polarity that a stored word names. -/
def ofLabel? (word : String) : Option Polarity :=
  if word = "Active Low" then some .activeLow
  else if word = "Active High" then some .activeHigh
  else none

@[simp] theorem ofLabel?_label (p : Polarity) : ofLabel? p.label = some p := by
  cases p <;> rfl

end Polarity

/-- Where a device is wired, and which level switches it on. -/
structure Pin where
  offset : Offset
  polarity : Polarity
  deriving DecidableEq, Repr

/-! ## The irrigation board -/

namespace Wiring

/-- The chip that is opened unless the configuration names another. -/
def chipPath : String := "/dev/gpiochip0"

/-- Number of lines of the simulated chip. -/
def chipLines : Nat := 58

/-- Relay channel of the water valve. -/
def valve : Offset := 17

/-- Relay channel of the water pump. -/
def pump : Offset := 27

/-- Highest offset that a command may name: the last line of the chip. -/
def maxOffset : Offset := 57

/-- Name under which the controller requests its lines. -/
def consumer : String := "gh-daily-cycle-aws"

/-- Longest consumer label that a chip stores, in bytes. -/
def labelCapacity : Nat := 32

end Wiring

end Irrigation
