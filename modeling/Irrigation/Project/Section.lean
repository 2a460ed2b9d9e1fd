import Irrigation.Config

/-!
# The watering section of a project

A project stores the settings of the watering system in a section of its own: the mode, the
durations, and an entry for each device. `Section.schema` reads it, `Section.value` writes it.
-/

namespace Irrigation.Project

/-- The member of a document that holds the section. -/
def sectionKey : String := "automaticWateringSystem"

/-- The member of a section that holds the flow. -/
def flowKey : String := "flow"

/-- The member of a flow that holds the devices. -/
def devicesKey : String := "devices"

/-- What is stored about a device. -/
structure DeviceEntry where
  name : String
  pin : UInt64
  polarity : Polarity
  enabled : Bool
  deriving DecidableEq, Repr

/-- The stored flow: its durations in milliseconds, and its devices. -/
structure Flow where
  activation : UInt64
  deactivation : UInt64
  separation : UInt64
  devices : List DeviceEntry
  deriving DecidableEq, Repr

/-- The stored settings of the watering system. -/
structure Section where
  mode : String
  flow : Flow
  deriving DecidableEq, Repr

open Json

/-- How the entry of a device is read. -/
def DeviceEntry.schema : Schema DeviceEntry where
  name := "DeviceEntry"
  start := ⟨"", 0, .activeLow, false⟩
  defaults := false
  fields :=
    [.of "name" .text fun s e => { e with name := s },
      .of "pinID" .uint64 fun n e => { e with pin := n },
      .of "activationState" Polarity.reader fun p e => { e with polarity := p },
      .of "enabled" .bool fun b e => { e with enabled := b }]

/-- Writes the entry of a device. -/
def DeviceEntry.value (e : DeviceEntry) : Value :=
  .object
    [("name", .text e.name), ("pinID", .ofNatural e.pin),
      ("activationState", e.polarity.value), ("enabled", .bool e.enabled)]

namespace Flow

/-- How a flow is read. -/
def schema : Schema Flow where
  name := "FlowSection"
  start := ⟨0, 0, 0, []⟩
  defaults := false
  fields :=
    [.of "activationTime" .uint64 fun n f => { f with activation := n },
      .of "deactivationTime" .uint64 fun n f => { f with deactivation := n },
      .of "deactivationSepTime" .uint64 fun n f => { f with separation := n },
      .of devicesKey (.list DeviceEntry.schema.record) fun ds f => { f with devices := ds }]

/-- Writes a flow. -/
def value (f : Flow) : Value :=
  .object
    [("activationTime", .ofNatural f.activation), ("deactivationTime", .ofNatural f.deactivation),
      ("deactivationSepTime", .ofNatural f.separation),
      (devicesKey, .array (f.devices.map DeviceEntry.value))]

/-- The first entry of a device. -/
def device? (f : Flow) (r : Role) : Option DeviceEntry :=
  f.devices.find? fun e => e.name == r.projectName

/-- The stored durations. -/
def timing (f : Flow) : Timing := ⟨f.activation, f.deactivation, f.separation⟩

end Flow

namespace Section

/-- How a section is read. -/
def schema : Schema Section where
  name := "AutomaticWateringSection"
  start := ⟨"", ⟨0, 0, 0, []⟩⟩
  defaults := false
  fields :=
    [.of "mode" .text fun s a => { a with mode := s },
      .of flowKey Flow.schema.record fun f a => { a with flow := f }]

/-- Writes a section. -/
def value (a : Section) : Value := .object [("mode", .text a.mode), (flowKey, a.flow.value)]

/-- Reads the text of a section. -/
def ofText (text : String) : Except Json.Error Section := schema.record.ofText text

/-- Reads a section from a document. -/
def ofValue (v : Value) : Except Json.Error Section := schema.record.ofValue v

end Section

end Irrigation.Project
