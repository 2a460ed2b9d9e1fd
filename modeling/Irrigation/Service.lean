import Irrigation.Console.Command
import Irrigation.Project.Settings

/-!
# The service

The service carries out commands on the watering system. It brings the numbers of an operator
into their range, keeps the project in use, and says what went wrong. Its main functions are
`Service.handle` for one watering action and `Service.execute` for a console command.
-/

namespace Irrigation

open Project

/-- The watering system with the limits on commands and the project in use. -/
structure Service where
  system : Watering
  limits : Limits
  project : Option Document := none
  deriving Repr

/-- What a console command leads to. -/
inductive Outcome
  | done
  /-- Text for the operator. -/
  | print (text : String)
  /-- The console is to be left. -/
  | exit
  deriving DecidableEq, Repr

/-- What the controller calls itself. -/
def programName : String := "greenhouse"

/-- The answer to the question for the version. -/
def versionText : String := s!"{programName} {currentVersion}"

/-- A number brought into the range from 0 to `max`. -/
def clamp (max : Nat) (value : Int) : Nat := min value.toNat max

theorem clamp_le (max : Nat) (value : Int) : clamp max value ≤ max := Nat.min_le_right ..

/-- The name of an interval in messages to the operator. -/
def Interval.label : Interval → String
  | .activation => "activation time"
  | .deactivation => "deactivation time"
  | .separation => "valve/pump separation"

namespace Service

instance : Journaling Service := ⟨fun s e => { s with system := record s.system e }⟩

/-- A message of the service, for the log and the operator. -/
def report (level : Level) (message : String) (s : Service) : Service :=
  Irrigation.report "Service" level message s

/-- Does something with the system. -/
def onSystem (f : Watering → Watering) (s : Service) : Service := { s with system := f s.system }

/-! ## Watering commands -/

/-- Brings a number into its range, and says so if that changes it. -/
def clampReported (what : String) (value : Int) (max : Nat) (s : Service) : Nat × Service :=
  let clamped := clamp max value
  let s :=
    if value = clamped then s
    else s.report .warn s!"{what} {value} out of range [0, {max}], using {clamped}"
  (clamped, s)

/-- Sets a duration, brought into its range. -/
def setDuration (i : Interval) (ms : Int) (s : Service) : Service :=
  let (ms, s) := s.clampReported i.label ms s.limits.maxDurationMs.toNat
  log .info s!"Service: {i.label} set to {ms} ms" (s.onSystem (·.setDuration i (.ofNat ms)))

/-- Moves a device to a line, brought into its range. -/
def setLine (r : Role) (line : Int) (s : Service) : Except Error Unit × Service :=
  let (line, s) := s.clampReported r.label line s.limits.maxPinOffset.toNat
  match s.system.move r (.ofNat line) with
  | (.ok (), system) => (.ok (), { s with system })
  | (.error e, system) =>
    (.error (.line e),
      { s with system }.report .error s!"cannot move the {r.label} to line {line}: {e.message}")

/-- Carries out one watering action. -/
def handle (s : Service) : WateringCommand → Except Error Unit × Service
  | .start flow => (.ok (), s.onSystem fun system => (system.start flow).2)
  | .stop => (.ok (), s.onSystem (·.stop .shutdown))
  | .setDuration i ms => (.ok (), s.setDuration i ms)
  | .setLine r line => s.setLine r line
  | .enable r on => (.ok (), s.onSystem (·.enable r on))

/-- Carries out watering actions up to the first that fails. -/
def handleAll (s : Service) : List WateringCommand → Except Error Unit × Service
  | [] => (.ok (), s)
  | c :: rest =>
    match s.handle c with
    | (.ok (), s) => s.handleAll rest
    | (.error e, s) => (.error e, s)

/-! ## Stopping everything -/

/-- Stops everything as fast as possible. -/
def abort (s : Service) : Service :=
  let s := s.report .warn "ABORT COMMAND ISSUED, starting emergency abort"
  (s.onSystem (·.stop .emergencyAbort)).report .warn "emergency abort finished"

/-- Stops everything in order. -/
def shutdown (s : Service) : Service :=
  (log .info "Service: tearing down" s).onSystem (·.stop .shutdown)

/-! ## Projects -/

/-- Applies a project; it is in use from then on, unless it cannot be applied. -/
def adopt (d : Document) (s : Service) : Except Error Unit × Service :=
  match s.system.loadFrom d with
  | (.error e, system) => (.error e, { s with system })
  | (.ok (), system) =>
    (.ok (),
      { log .info s!"Service: project '{d.displayTitle}' loaded" { s with system } with
        project := some d })

/-- Loads a project file and applies it. -/
def loadProject (path : String) (s : Service) : FileTask (Except Error Unit × Service) := do
  match ← Document.load path s with
  | (.error e, s) => return (.error (.project e), s)
  | (.ok d, s) => return s.adopt d

/-- Stores the settings in the project in use, or in a new one. -/
def storeSettings (s : Service) : Document × Service :=
  let d := s.project.getD (Document.new unknownTitle)
  let (d, system) := s.system.saveTo d
  (d, { s with system, project := some d })

/-- Saves the settings to a project file, by default the project's own. -/
def saveProject (path : Option String) (s : Service) :
    FileTask (Except Error Unit × Service) := do
  let (d, s) := s.storeSettings
  let (result, s) ← d.save (path.getD d.defaultPath) s
  return (result.mapError .project, s)

/-! ## Console commands -/

/-- Carries out a console command. -/
def execute (s : Service) : ConsoleCommand → FileTask (Except Error Outcome × Service)
  | .watering options =>
    let (result, s) := s.handleAll options.commands
    return (result.map fun _ => .done, s)
  | .status => return (.ok (.print s.system.status.text), s)
  | .abort => return (.ok .done, s.abort)
  | .project (.load path) => do
    let (result, s) ← s.loadProject path
    return (result.map fun _ => .done, s)
  | .project (.save path) => do
    let (result, s) ← s.saveProject path
    return (result.map fun _ => .done, s)
  | .version => return (.ok (.print versionText), s)
  | .exit => return (.ok .exit, s.shutdown)

end Service

end Irrigation
