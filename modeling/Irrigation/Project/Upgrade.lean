import Irrigation.Project.Section

/-!
# Legacy flows

Older projects stored the devices as four values of the flow itself: whether each is enabled,
and the pin of each. `upgradeFlow` turns such a flow into one with a list of devices. The
boards of that time were wired active low, so that is the polarity written.
-/

namespace Irrigation.Project

open Json

/-- The members that a legacy flow has for a device. -/
structure LegacyKeys where
  enabled : String
  pin : String

/-- The legacy members of each device. -/
def legacyKeys : Role → LegacyKeys
  | .valve => ⟨"isWaterValveEnabled", "valvePinID"⟩
  | .pump => ⟨"isWaterPumpEnabled", "pumpPinID"⟩

/-- All legacy members. -/
def allLegacyKeys : List String :=
  Role.all.map (fun r => (legacyKeys r).enabled) ++ Role.all.map fun r => (legacyKeys r).pin

/-- The entry of a device of a legacy flow. The pin of a disabled device meant nothing, so 0 is
stored. -/
def legacyDevice (flow : Members) (r : Role) : Except ProjectError Value := do
  let keys := legacyKeys r
  let some enabled := (flow.find? keys.enabled).bind Value.bool?
    | .error (.missing keys.enabled)
  let pin ←
    if enabled then
      match (flow.find? keys.pin).bind Value.natural? with
      | some pin => .ok pin
      | none => .error (.missing keys.pin)
    else .ok 0
  return .object <| Members.ofList
    [("name", .text r.projectName), ("pinID", .ofNatural pin),
      ("activationState", Polarity.activeLow.value), ("enabled", .bool enabled)]

/-- Whether a flow is in the legacy layout. -/
def isLegacy (flow : Members) : Bool :=
  !flow.contains devicesKey && allLegacyKeys.any flow.contains

/-- Brings a flow that is in the legacy layout up to date; `none` for one that is not. -/
def upgradeFlow (flow : Members) : Except ProjectError (Option Members) := do
  if !isLegacy flow then return none
  let valve ← legacyDevice flow .valve
  let pump ← legacyDevice flow .pump
  let others := allLegacyKeys.foldl Members.erase flow
  return some (others.insert devicesKey (.array [valve, pump]))

/-- Brings the flow of a document up to date; `none` if it is so already. -/
def upgradeRoot (root : Members) : Except ProjectError (Option Members) := do
  let some stored := root.find? sectionKey
    | return none
  let missing : Except ProjectError (Option Members) := .error (.missing flowKey)
  match stored with
  | .object members =>
    match Members.find? members flowKey with
    | some (.object flow) =>
      let upgraded ← upgradeFlow flow
      return upgraded.map fun flow =>
        root.insert sectionKey (.object (Members.insert members flowKey (.object flow)))
    | _ => missing
  | _ => missing

end Irrigation.Project
