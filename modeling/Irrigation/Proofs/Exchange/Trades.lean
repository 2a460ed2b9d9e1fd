import Irrigation.Proofs.World.Outputs
import Irrigation.Proofs.World.Switching

/-!
# Controllers and durations that are shared

In a `World` every controller belongs to one party. In an `Exchange` the controllers and the
durations that were ever made have numbers, and several parties may refer to the same ones: the
system to those in force, the worker to those its iteration took at its head, and the caller to
controllers that he keeps. `Exchange.next` is what happens in one `Trade`. A controller to which
nobody refers any more is dropped: it gives up its lines.

The worker's step is the step of the system that the numbers describe (`Exchange.facing`), and every
other move of a world that has nothing to do with references is a trade as it stands.
-/

namespace Irrigation

/-! ## What is remembered -/

/-- What is remembered of the trades. -/
inductive Entry
  /-- Durations are supplied, under a number of their own. -/
  | supplied (n : Nat) (t : Timing)
  /-- One of numbered durations is set. -/
  | adjusted (n : Nat) (i : Interval) (ms : UInt64)
  /-- Durations are put in force. -/
  | chosen (n : Nat)
  /-- A controller is put in force. -/
  | installed (k : Nat)
  /-- An iteration takes its controller. -/
  | tookHardware (k : Nat)
  /-- An iteration takes its durations. -/
  | tookTiming (n : Nat)
  /-- The worker shows a mark, and its iteration has taken these. -/
  | did (hardware timing : Option Nat) (m : Mark)
  deriving DecidableEq

namespace Entry

/-- The value that a duration gets. -/
def sets? (n : Nat) (i : Interval) : Entry → Option UInt64
  | .supplied m t => if m = n then some (t.get i) else none
  | .adjusted m j ms => if m = n ∧ j = i then some ms else none
  | _ => none

/-- The durations that are put in force. -/
def chosen? : Entry → Option Nat
  | .chosen n => some n
  | _ => none

/-- The controller that is put in force. -/
def installed? : Entry → Option Nat
  | .installed k => some k
  | _ => none

end Entry

/-- What some entries say last of a thing. -/
def lastOf {α : Type} (about? : Entry → Option α) (log : List Entry) : Option α :=
  (log.filterMap about?).getLast?

/-! ## Exchanges -/

/-- A world in which controllers and durations are shared. -/
structure Exchange where
  world : World
  /-- All controllers that were ever built. One that was dropped holds nothing. -/
  controllers : List Controller
  /-- All durations that were ever supplied. -/
  timings : List Timing
  /-- What is in force. -/
  hardware : Nat := 0
  timing : Nat := 0
  /-- What the iteration under way has taken. -/
  usedHardware : Option Nat := none
  usedTiming : Option Nat := none
  /-- The controllers that the caller refers to, as often as he does. -/
  kept : List Nat := []
  log : List Entry := []

/-- What happens in an exchange. -/
inductive Trade
  /-- The worker takes a step. -/
  | work
  /-- A move of somebody who refers to nothing. -/
  | plain (m : Move)
  /-- A controller is built, and the caller keeps it. -/
  | build (pins : Each Pin)
  /-- The caller keeps the controller in force. -/
  | keep
  /-- The caller gives up a reference. -/
  | forget (k : Nat)
  /-- A controller that the caller keeps is put in force. -/
  | install (k : Nat)
  /-- A controller that is in force or that the caller keeps is moved. -/
  | rebind (k : Nat) (wanted : Each (Option Offset))
  /-- Durations are supplied. -/
  | supply (t : Timing)
  /-- Durations are put in force. -/
  | choose (n : Nat)
  /-- One duration is set, be it in force, in use, or neither. -/
  | adjust (n : Nat) (i : Interval) (ms : UInt64)

/-- Whether a move has nothing to do with references. -/
def Move.isPlain : Move → Bool
  | .work => false
  | .call (.setDuration ..) => false
  | .call (.replaceTiming _) => false
  | .call (.rebind _) => false
  | .call (.build _) => false
  | .call (.install _) => false
  | .call (.discard _) => false
  | _ => true

/-- Whether the worker is about to let go of the iteration's controller. -/
def Point.letsGo : Point → Bool
  | .lettingGo _ => true
  | _ => false

/-- What is used, if something else is in force. -/
def supplanted {α : Type} (made : List α) (used : Option Nat) (current : Nat) : Option α :=
  (used.filter fun n => n != current).bind fun n => made[n]?

/-- The iteration's durations, if others have taken their place. -/
def Watering.ownTiming (s : Watering) : Option Timing := s.run.bind fun w => w.timing

namespace Exchange

variable (x : Exchange)

/-- Whether somebody refers to a controller. -/
def refersTo (k : Nat) : Bool :=
  k == x.hardware || x.kept.contains k || x.usedHardware == some k

/-- The controller that the iteration uses, if another is in force. -/
def replaced? : Option Controller := supplanted x.controllers x.usedHardware x.hardware

/-- The durations that the iteration uses, if others are in force. -/
def ownTiming? : Option Timing := supplanted x.timings x.usedTiming x.timing

/-- Puts a rig in the place of the world's. -/
def withRig (rig : Rig) : Exchange :=
  { x with world := { x.world with system := { x.world.system with rig } } }

/-- The system says that something was replaced. -/
def announces (what : String) : Exchange :=
  x.withRig (Irrigation.log .info s!"Watering: {what} replaced" x.world.system.rig)

/-- Lets the system have what the numbers say. -/
def seat : Exchange :=
  { x with world := { x.world with system := { x.world.system with
      hardware := x.controllers[x.hardware]?.getD x.world.system.hardware
      timing := x.timings[x.timing]?.getD x.world.system.timing
      run := x.world.system.run.map fun w =>
        { w with hardware := x.replaced?, timing := x.ownTiming? } } } }

/-- A controller is dropped if nobody refers to it. That has to wait while the worker keeps the
lines. -/
def drop (k : Nat) : Option Exchange :=
  if x.refersTo k then some x
  else if x.world.system.linesHeld then none
  else x.controllers[k]?.map fun c =>
    { x.withRig (c.release x.world.system.rig).2 with
      controllers := x.controllers.set k (c.release x.world.system.rig).1 }

/-- Puts a controller in force. -/
def putHardware (k : Nat) : Exchange := { x with hardware := k, log := x.log ++ [.installed k] }

/-- Puts durations in force. -/
def putTiming (n : Nat) : Exchange := { x with timing := n, log := x.log ++ [.chosen n] }

/-- The exchange after a trade that concerns references, but for what the system has. -/
def trade : Trade → Option Exchange
  | .build pins =>
    match Controller.wire pins x.world.system.rig with
    | (.error _, rig) => some (x.withRig rig)
    | (.ok c, rig) => some { x.withRig rig with
        controllers := x.controllers ++ [c], kept := x.controllers.length :: x.kept }
  | .keep => some { x with kept := x.hardware :: x.kept }
  | .forget k => if x.kept.contains k then { x with kept := x.kept.erase k }.drop k else none
  | .install k =>
    if x.kept.contains k then
      ((x.putHardware k).drop x.hardware).map (announces · "hardware controller")
    else none
  | .rebind k wanted =>
    if (k == x.hardware || x.kept.contains k) && !x.world.system.linesHeld then
      x.controllers[k]?.map fun c =>
        { x.withRig (c.rebind wanted x.world.system.rig).2.2 with
          controllers := x.controllers.set k (c.rebind wanted x.world.system.rig).2.1 }
    else none
  | .supply t => some { x with
      timings := x.timings ++ [t], log := x.log ++ [.supplied x.timings.length t] }
  | .choose n =>
    if n < x.timings.length then some ((x.putTiming n).announces "time provider") else none
  | .adjust n i ms =>
    x.timings[n]?.map fun t =>
      { x with timings := x.timings.set n (t.set i ms), log := x.log ++ [.adjusted n i ms] }
  | _ => none

/-! ### The worker -/

/-- Whether the caller still refers to the controller that the worker is about to let go of. -/
def isSpared : Bool :=
  (x.world.system.point?.map Point.letsGo).getD false &&
    (x.usedHardware.map x.kept.contains).getD false

/-- The world as the worker finds it: there is no replaced controller to give up if the caller still
refers to it. -/
def facing : World :=
  if x.isSpared then { x.world with system := { x.world.system with
      run := x.world.system.run.map fun w => { w with hardware := none } } }
  else x.world

/-- The system in which the worker takes his step. -/
def acting : Watering := x.facing.system.actAs .worker

/-- The controller that a step of the worker can touch. -/
def touched : Nat :=
  if x.acting.replaced.isSome then x.usedHardware.getD x.hardware else x.hardware

/-- What is remembered of the step from a point. -/
def shown : Point → List Entry
  | .takingHardware => [.tookHardware x.hardware]
  | .takingTiming => [.tookTiming x.timing]
  | p => (x.acting.marksAt p).map (.did x.usedHardware x.usedTiming)

/-- The exchange after the step from a point, which leads to this world. -/
def worked (p : Point) (w : World) : Exchange :=
  let goesOn := (w.system.point?.map Point.inIteration).getD false
  { x with
    world := w
    controllers := x.controllers.set x.touched (x.acting.touch p).1
    usedHardware :=
      if goesOn then if p = .takingHardware then some x.hardware else x.usedHardware else none
    usedTiming :=
      if goesOn then if p = .takingTiming then some x.timing else x.usedTiming else none
    log := x.log ++ x.shown p }

/-- The exchange after a trade; `none` if the trade cannot be made now. -/
def next : Trade → Option Exchange
  | .work => x.world.system.point?.bind fun p => (x.facing.next .work).map (x.worked p)
  | .plain m => if m.isPlain then (x.world.next m).map fun w => { x with world := w } else none
  | t => (x.trade t).map seat

/-- Several trades, one after the other. -/
def run : List Trade → Exchange → Option Exchange
  | [], x => some x
  | t :: rest, x => (x.next t).bind (run rest)

/-- The exchange that a wired system begins with. -/
def ofWired (s : Watering) (guests : List Output) : Exchange where
  world := { system := s, guests }
  controllers := [s.hardware]
  timings := [s.timing]
  log := [.supplied 0 s.timing, .chosen 0, .installed 0]

/-- The exchanges that trades lead to from a wired system. -/
inductive Reachable : Exchange → Prop
  | wired {path : String} {lines : Nat} {pins : Each Pin} {timing : Timing} {enabled : Each Bool}
      {s : Watering} (before : List GuestMove) {rig : Rig} {guests : List Output}
      (hbefore : before.foldl (fun x g => g.apply x) (Rig.openChip path lines, []) = (rig, guests))
      (hwired : Watering.wire rig pins timing enabled = .ok s) : Reachable (ofWired s guests)
  | trade {x x' : Exchange} {t : Trade} (h : Reachable x) (ht : x.next t = some x') : Reachable x'

end Exchange

end Irrigation
