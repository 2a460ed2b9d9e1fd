import Irrigation.Chip
import Irrigation.Device

/-!
# The hardware controller

The controller owns the outputs of the valve and the pump. A role holds at most one line, and a
move deactivates and releases the old line before the new one is requested, for both roles
first, so that the valve and the pump may trade lines. A move that fails hands back what it had
acquired and puts both roles on their previous lines again.

Main definitions: `Slot`, `Controller`, `Controller.wire`, `Controller.rebind`,
`Controller.release`. They work on any `Board`.
-/

namespace Irrigation

/-- One role's part of a controller: its polarity, its offset, and the output if it is bound. -/
structure Slot where
  polarity : Polarity
  offset : Offset
  output : Option Output
  deriving DecidableEq, Repr

/-- Whether the role holds a line. -/
def Slot.isBound (s : Slot) : Bool := s.output.isSome

/-- The controller of both devices. -/
structure Controller where
  slots : Each Slot
  deriving DecidableEq, Repr

namespace Controller

/-- One role's part. -/
def slot (c : Controller) (r : Role) : Slot := c.slots.get r

/-- Changes one role's part. -/
def modify (c : Controller) (r : Role) (f : Slot → Slot) : Controller :=
  ⟨c.slots.set r (f (c.slot r))⟩

/-- Binds a role to an output. -/
def bind (c : Controller) (r : Role) (o : Output) : Controller :=
  c.modify r fun s => { s with output := some o }

@[simp] theorem slot_modify (c : Controller) (r : Role) (f : Slot → Slot) (r' : Role) :
    (c.modify r f).slot r' = if r' = r then f (c.slot r) else c.slot r' := by
  simp [slot, modify]

variable {σ : Type} [Board σ]

/-- A message of the controller, for the log and the operator. -/
def report (level : Level) (message : String) (s : σ) : σ :=
  Irrigation.report "Hardware" level message s

/-- Requests a line as an output of the controller. -/
def requestPin (pin : Pin) (s : σ) : Except LineError Output × σ :=
  Board.request s Wiring.consumer pin.offset .output pin.polarity

/-- Requests both lines. If one cannot be had, nothing stays claimed. -/
def wire (pins : Each Pin) (s : σ) : Except LineError Controller × σ :=
  if pins.valve.offset = pins.pump.offset then (.error (.shared pins.valve.offset), s)
  else
    match requestPin pins.valve s with
    | (.error e, s) => (.error e, s)
    | (.ok valve, s) =>
      match requestPin pins.pump s with
      | (.error e, s) => (.error e, (Board.release s [pins.valve.offset]).2)
      | (.ok pump, s) =>
        let valveAt := s!"valve on line {pins.valve.offset} ({pins.valve.polarity.label})"
        let pumpAt := s!"pump on line {pins.pump.offset} ({pins.pump.polarity.label})"
        (.ok ⟨⟨pins.valve.polarity, pins.valve.offset, some valve⟩,
            ⟨pins.pump.polarity, pins.pump.offset, some pump⟩⟩,
          log .info s!"Hardware: {valveAt}, {pumpAt}" s)

/-- Switches the output bound to a role. `false` if there is none. -/
def switch (c : Controller) (r : Role) (on : Bool) (s : σ) : Bool × Controller × σ :=
  match (c.slot r).output with
  | none => (false, c, s)
  | some o =>
    let (o, s) := o.switch on s
    (true, c.bind r o, s)

/-- Deactivates and releases what a role holds. A release that fails is reported, and the role
lets go all the same. -/
def unbind (c : Controller) (r : Role) (s : σ) : Controller × σ :=
  match (c.slot r).output with
  | none => (c, s)
  | some o =>
    let offset := (c.slot r).offset
    let (_, s) := o.switch false s
    let c := c.modify r fun slot => { slot with output := none }
    match Board.release s [offset] with
    | (true, s) => (c, s)
    | (false, s) =>
      (c, report .warn s!"release of {r.label} line {offset} failed, continuing" s)

/-- Unbinds some roles, one after the other. -/
def unbindAll (c : Controller) : List Role → σ → Controller × σ
  | [], s => (c, s)
  | r :: rest, s =>
    let (c, s) := c.unbind r s
    c.unbindAll rest s

/-- Gives up both lines: what is done when a controller is no longer used. -/
def release (c : Controller) (s : σ) : Controller × σ := c.unbindAll Role.all s

/-! ## Moving -/

/-- Requests a pin for each role in turn, up to the first that cannot be had. -/
def acquire (pin : Role → Pin) : List Role → σ →
    List (Role × Output) × Option (Role × LineError) × σ
  | [], s => ([], none, s)
  | r :: rest, s =>
    match requestPin (pin r) s with
    | (.error e, s) => ([], some (r, e), s)
    | (.ok o, s) =>
      let (acquired, failure, s) := acquire pin rest s
      ((r, o) :: acquired, failure, s)

/-- Binds the roles to the outputs acquired for them. -/
def settle (c : Controller) : List (Role × Output) → (Role → Offset) → σ → Controller × σ
  | [], _, s => (c, s)
  | (r, o) :: rest, target, s =>
    let old := (c.slot r).offset
    let c := c.modify r fun slot => { slot with offset := target r, output := some o }
    settle c rest target
      (log .info s!"Hardware: {r.label} moved from line {old} to line {target r}" s)

/-- Hands back the lines that a failed move had acquired. -/
def handBack : List (Role × Output) → (Role → Offset) → σ → σ
  | [], _, s => s
  | (r, _) :: rest, target, s => handBack rest target (Board.release s [target r]).2

/-- Puts the roles back on the lines they had. A role whose line is gone stays unbound. -/
def restore (c : Controller) : List Role → σ → Controller × σ
  | [], s => (c, s)
  | r :: rest, s =>
    let slot := c.slot r
    match requestPin ⟨slot.offset, slot.polarity⟩ s with
    | (.ok o, s) =>
      restore (c.bind r o) rest
        (log .info s!"Hardware: {r.label} restored on line {slot.offset}" s)
    | (.error e, s) =>
      restore c rest
        (report .error
          s!"{r.label} left unbound, line {slot.offset} unavailable: {e.message}" s)

/-- Where each role is to be: the given offset, or else the one it has. -/
def targets (c : Controller) (wanted : Each (Option Offset)) : Each Offset :=
  ⟨wanted.valve.getD c.slots.valve.offset, wanted.pump.getD c.slots.pump.offset⟩

/-- The roles that have to move: those whose offset changes, and those that hold no line. -/
def moving (c : Controller) (target : Each Offset) : List Role :=
  Role.all.filter fun r => target.get r != (c.slot r).offset || !(c.slot r).isBound

/-- Moves both roles in one step; `none` keeps a role where it is. -/
def rebind (c : Controller) (wanted : Each (Option Offset)) (s : σ) :
    Except LineError Unit × Controller × σ :=
  let target := c.targets wanted
  if target.valve = target.pump then (.error (.shared target.valve), c, s)
  else
    match c.moving target with
    | [] =>
      (.ok (), c,
        log .debug
          s!"Hardware: valve and pump already on lines {target.valve} and {target.pump}" s)
    | roles =>
      let (c, s) := c.unbindAll roles s
      match acquire (fun r => ⟨target.get r, (c.slot r).polarity⟩) roles s with
      | (acquired, none, s) =>
        let (c, s) := c.settle acquired target.get s
        (.ok (), c, s)
      | (acquired, some (r, e), s) =>
        let s := log .warn
          s!"Hardware: cannot request line {target.get r} for {r.label}: {e.message}" s
        let s := handBack acquired target.get s
        let (c, s) := c.restore roles s
        (.error e, c, s)

/-- Moves one role. -/
def move (c : Controller) (r : Role) (offset : Offset) (s : σ) :
    Except LineError Unit × Controller × σ :=
  c.rebind ((Each.both none).set r (some offset)) s

end Controller

end Irrigation
