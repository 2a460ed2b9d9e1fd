import Irrigation.Device
import Irrigation.Error

/-!
# Configuration

What can be set before a start: where the devices are wired, whether they are enabled, the
durations, and the limits on what commands may set. `Config.schema` reads a configuration,
`Config.value` writes it, and `Config.load` reads a file and refuses what no controller can do.
-/

namespace Irrigation

/-- The configuration of a controller. -/
structure Config where
  chipPath : String
  valvePin : Offset
  valvePolarity : Polarity
  pumpPin : Offset
  pumpPolarity : Polarity
  valveEnabled : Bool
  pumpEnabled : Bool
  activationMs : UInt64
  deactivationMs : UInt64
  separationMs : UInt64
  /-- The longest duration that a command may set. -/
  maxDurationMs : UInt64
  /-- The highest offset that a command may name. -/
  maxPinOffset : Offset
  deriving DecidableEq, Repr

/-- Upper bounds for the numbers in commands. -/
structure Limits where
  maxDurationMs : UInt64
  maxPinOffset : Offset
  deriving DecidableEq, Repr

namespace Polarity

/-- Reads a polarity. -/
def reader : Json.Reader Polarity :=
  .choice [(Polarity.activeLow.label, .activeLow), (Polarity.activeHigh.label, .activeHigh)]

/-- Writes a polarity. -/
def value (p : Polarity) : Json.Value := .text p.label

end Polarity

namespace Config

/-- The configuration of the irrigation board: 6 s of water every 10 minutes. -/
def initial : Config where
  chipPath := Wiring.chipPath
  valvePin := Wiring.valve
  valvePolarity := .activeLow
  pumpPin := Wiring.pump
  pumpPolarity := .activeLow
  valveEnabled := true
  pumpEnabled := true
  activationMs := 6000
  deactivationMs := 600000
  separationMs := 600
  maxDurationMs := 86400000
  maxPinOffset := Wiring.maxOffset

open Json in
/-- How a configuration is read: what is left out keeps its initial value. -/
def schema : Schema Config where
  name := "SystemConfig"
  start := initial
  defaults := true
  fields :=
    [.of "chip_path" .text fun s c => { c with chipPath := s },
      .of "valve_pin" .uint32 fun n c => { c with valvePin := n },
      .of "valve_polarity" Polarity.reader fun p c => { c with valvePolarity := p },
      .of "pump_pin" .uint32 fun n c => { c with pumpPin := n },
      .of "pump_polarity" Polarity.reader fun p c => { c with pumpPolarity := p },
      .of "valve_enabled" .bool fun b c => { c with valveEnabled := b },
      .of "pump_enabled" .bool fun b c => { c with pumpEnabled := b },
      .of "activation_time_ms" .uint64 fun n c => { c with activationMs := n },
      .of "deactivation_time_ms" .uint64 fun n c => { c with deactivationMs := n },
      .of "deactivation_sep_time_ms" .uint64 fun n c => { c with separationMs := n },
      .of "max_duration_ms" .uint64 fun n c => { c with maxDurationMs := n },
      .of "max_pin_offset" .uint32 fun n c => { c with maxPinOffset := n }]

/-- An offset as a number. -/
def offsetValue (n : Offset) : Json.Value := .number (.whole n.toNat)

/-- Writes a configuration, member by member in the order of its fields. -/
def members (c : Config) : Json.Members :=
  [("chip_path", .text c.chipPath),
    ("valve_pin", offsetValue c.valvePin),
    ("valve_polarity", c.valvePolarity.value),
    ("pump_pin", offsetValue c.pumpPin),
    ("pump_polarity", c.pumpPolarity.value),
    ("valve_enabled", .bool c.valveEnabled),
    ("pump_enabled", .bool c.pumpEnabled),
    ("activation_time_ms", .ofNatural c.activationMs),
    ("deactivation_time_ms", .ofNatural c.deactivationMs),
    ("deactivation_sep_time_ms", .ofNatural c.separationMs),
    ("max_duration_ms", .ofNatural c.maxDurationMs),
    ("max_pin_offset", offsetValue c.maxPinOffset)]

/-- The configuration as an object. -/
def value (c : Config) : Json.Value := .object c.members

/-- Reads the text of a configuration. -/
def ofText (text : String) : Except Json.Error Config := schema.record.ofText text

/-- Refuses a configuration that no controller can be wired from. -/
def validate (c : Config) : Except Error Unit :=
  if c.valvePin = c.pumpPin then .error (.config "valve and pump cannot share one pin")
  else if c.maxPinOffset < c.valvePin ∨ c.maxPinOffset < c.pumpPin then
    .error (.config "device pin exceeds max_pin_offset")
  else .ok ()

/-- Reads and checks the text of a configuration file. -/
def ofFile (content : Except FileError String) : Except Error Config := do
  let text ← content.mapError (.project ∘ .file)
  let c ← (ofText text).mapError (.project ∘ .json)
  c.validate
  .ok c

/-- Loads a configuration file. -/
def load (path : String) : FileTask (Except Error Config) := do
  return ofFile (← FileTask.readText path)

/-- Where the devices are wired. -/
def pins (c : Config) : Each Pin := ⟨⟨c.valvePin, c.valvePolarity⟩, ⟨c.pumpPin, c.pumpPolarity⟩⟩

/-- Which devices are enabled. -/
def enabled (c : Config) : Each Bool := ⟨c.valveEnabled, c.pumpEnabled⟩

/-- The durations of a cycle. -/
def timing (c : Config) : Timing := ⟨c.activationMs, c.deactivationMs, c.separationMs⟩

/-- The limits on commands. -/
def limits (c : Config) : Limits := ⟨c.maxDurationMs, c.maxPinOffset⟩

end Config

end Irrigation
