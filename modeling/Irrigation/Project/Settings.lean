import Irrigation.Project.Document
import Irrigation.Scheduler

/-!
# Saving and loading the settings

The flags, durations and lines of the watering system are stored in the watering section of a
project. `Watering.storedSettings` is what is stored, `Watering.saveTo` puts it into a document, and
`Watering.loadFrom` applies what a document holds. A load looks at the whole section before it
changes anything, and moves both devices in one step, so that a project may swap their lines.
-/

namespace Irrigation

open Project

namespace Watering

/-! ## Saving -/

/-- What is stored about a device. Its pin is stored only if it is enabled and holds a line. -/
def storedDevice (s : Watering) (r : Role) : DeviceEntry :=
  let slot := s.hardware.slot r
  let enabled := s.enabled.get r
  { name := r.projectName
    pin := if enabled && slot.isBound then slot.offset.toUInt64 else 0
    polarity := slot.polarity
    enabled }

/-- What is stored of the system. -/
def storedSettings (s : Watering) : Section where
  mode := cycledFlow
  flow :=
    { activation := s.timing.activation
      deactivation := s.timing.deactivation
      separation := s.timing.separation
      devices := Role.all.map s.storedDevice }

/-- Says that a device which is enabled is stored without a pin, if it holds no line. -/
def warnUnbound (r : Role) (s : Watering) : Watering :=
  if s.enabled.get r && !(s.hardware.slot r).isBound then
    s.report .warn s!"{r.label} has no bound line, saved without a pin"
  else s

/-- What is stored of the system, after the warnings that it deserves. -/
def exportSettings (s : Watering) : Section × Watering :=
  let s := (s.warnUnbound .valve).warnUnbound .pump
  (s.storedSettings, s)

/-- Stores the settings in a document. -/
def saveTo (d : Document) (s : Watering) : Document × Watering :=
  let (settings, s) := s.exportSettings
  (d.setSection sectionKey settings.value.sorted,
    log .info "Project: automatic watering settings saved" s)

end Watering

/-! ## Loading -/

/-- What a section asks of a role; `none` leaves it as it is. -/
structure Wish where
  offset : Option Offset := none
  enabled : Option Bool := none
  deriving DecidableEq, Repr

/-- The offset that an entry asks for: its pin, if the device is enabled. -/
def Project.DeviceEntry.offset? (e : DeviceEntry) : Except ProjectError (Option Offset) :=
  if !e.enabled then .ok none
  else if e.pin.toNat < UInt32.size then .ok (some e.pin.toUInt32)
  else .error (.malformed s!"pinID {e.pin} out of range")

namespace Watering

/-- Looks at what a flow stores about a device. What differs from the wiring is reported, and
the wiring stays. -/
def review (f : Flow) (r : Role) (s : Watering) : Except ProjectError Wish × Watering :=
  match f.device? r with
  | none => (.ok {}, s.report .warn s!"project has no '{r.projectName}' entry, left unchanged")
  | some e =>
    let wired := (s.hardware.slot r).polarity
    let s :=
      if e.polarity = wired then s
      else
        let stored := e.polarity.label
        s.report .warn s!"{r.label} stored as {stored}, wired as {wired.label}; keeping wiring"
    (e.offset?.map fun offset => ⟨offset, some e.enabled⟩, s)

/-- Enables or disables a device, if that is wished. -/
def grant (r : Role) (wish : Wish) (s : Watering) : Watering :=
  match wish.enabled with
  | some on => s.enable r on
  | none => s

/-- Applies a flow: lines first, since only they can fail, then flags and durations. -/
def applyFlow (f : Flow) (s : Watering) : Except Error Unit × Watering :=
  match s.review f .valve with
  | (.error e, s) => (.error (.project e), s)
  | (.ok valve, s) =>
    match s.review f .pump with
    | (.error e, s) => (.error (.project e), s)
    | (.ok pump, s) =>
      match s.rebind ⟨valve.offset, pump.offset⟩ with
      | (.error e, s) => (.error (.line e), s)
      | (.ok (), s) =>
        let s := (s.grant .valve valve).grant .pump pump
        (.ok (), log .info "Project: automatic watering settings loaded"
          { s with timing := f.timing })

/-- Applies the settings that a document holds. A document without them changes nothing. -/
def loadFrom (d : Document) (s : Watering) : Except Error Unit × Watering :=
  match d.section? sectionKey with
  | none =>
    (.ok (), log .info "Project: no automatic watering section, keeping current settings" s)
  | some stored =>
    match Section.ofValue stored with
    | .error e => (.error (.project (.malformed s!"{sectionKey}: {e.message}")), s)
    | .ok settings =>
      if settings.mode ≠ cycledFlow then
        (.error (.project (.unsupportedMode settings.mode)), s)
      else
        let s :=
          if s.running then
            s.report .warn "loading watering settings while a job is running"
          else s
        s.applyFlow settings.flow

end Watering

end Irrigation
