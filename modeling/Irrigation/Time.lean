/-!
# Cycle durations

A watering cycle is timed by three intervals, each held as a whole number of milliseconds in
64 bits. A span of time that is longer than 64 bits can hold is cut to the longest one: anything
past that is "forever" anyway. Main definitions: `Span`, `Span.toMillis`, `Interval`, `Timing`.
-/

namespace Irrigation

/-- A span of time: whole seconds and the nanoseconds after them. -/
structure Span where
  seconds : Nat
  nanos : Nat
  deriving DecidableEq, Repr

namespace Span

/-- The whole milliseconds in a span. -/
def millis (d : Span) : Nat := d.seconds * 1000 + d.nanos / 1000000

/-- The whole milliseconds in a span, cut to what 64 bits hold. -/
def toMillis (d : Span) : UInt64 := UInt64.ofNat (min d.millis (UInt64.size - 1))

/-- The span of a number of milliseconds. -/
def ofMillis (ms : UInt64) : Span := ⟨ms.toNat / 1000, ms.toNat % 1000 * 1000000⟩

theorem millis_ofMillis (ms : UInt64) : (ofMillis ms).millis = ms.toNat := by
  simp only [millis, ofMillis]
  omega

@[simp] theorem toMillis_ofMillis (ms : UInt64) : (ofMillis ms).toMillis = ms := by
  have h := ms.toNat_lt_size
  rw [toMillis, millis_ofMillis, Nat.min_eq_left (by omega)]
  simp

end Span

/-- The three intervals of a cycle. -/
inductive Interval
  /-- How long the devices stay on. -/
  | activation
  /-- The idle time between two activations. -/
  | deactivation
  /-- The time between closing the valve and stopping the pump. -/
  | separation
  deriving DecidableEq, Repr

/-- The word for an interval in a journal. -/
def Interval.name : Interval → String
  | .activation => "activation"
  | .deactivation => "deactivation"
  | .separation => "separation"

/-- The length of each interval, in milliseconds. -/
structure Timing where
  activation : UInt64
  deactivation : UInt64
  separation : UInt64
  deriving DecidableEq, Repr

namespace Timing

/-- The length of one interval. -/
def get (t : Timing) : Interval → UInt64
  | .activation => t.activation
  | .deactivation => t.deactivation
  | .separation => t.separation

/-- Replaces the length of one interval. -/
def set (t : Timing) (i : Interval) (ms : UInt64) : Timing :=
  match i with
  | .activation => { t with activation := ms }
  | .deactivation => { t with deactivation := ms }
  | .separation => { t with separation := ms }

@[simp] theorem get_set (t : Timing) (i : Interval) (ms : UInt64) (j : Interval) :
    (t.set i ms).get j = if j = i then ms else t.get j := by
  cases i <;> cases j <;> simp [get, set]

end Timing

/-! ## Waiting for a stop -/

/-- A latch: once raised it stays up. -/
structure StopSignal where
  raised : Bool := false
  deriving DecidableEq, Repr

namespace StopSignal

/-- Raises the signal. -/
def request (_ : StopSignal) : StopSignal := ⟨true⟩

/-- The result of a wait: whether a stop ended it. Nobody raises the signal meanwhile, so this
is whether a stop was pending already, however long the wait. -/
def wait (s : StopSignal) (_ : Span) : Bool := s.raised

end StopSignal

end Irrigation
