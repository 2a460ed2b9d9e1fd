import Irrigation.Device
import Irrigation.Time

/-!
# Commands

What the operator can ask for. One line with watering options stands for several
`WateringCommand`s, which `WateringOptions.commands` puts into the order in which they are
carried out: a stop never cancels a start of the same line, and a start sees the new settings.
-/

namespace Irrigation

/-- One watering action. Numbers are as the operator gave them. -/
inductive WateringCommand
  | start (flow : Option String)
  | stop
  | setDuration (which : Interval) (ms : Int)
  | setLine (role : Role) (line : Int)
  | enable (role : Role) (on : Bool)
  deriving DecidableEq, Repr

/-- The options of a watering line; a start with an empty flow names none. -/
structure WateringOptions where
  start : Option String := none
  stop : Bool := false
  activation : Option Int := none
  deactivation : Option Int := none
  separation : Option Int := none
  line : Each (Option Int) := Each.both none
  enable : Each Bool := Each.both false
  disable : Each Bool := Each.both false
  deriving DecidableEq, Repr

namespace WateringOptions

/-- One command if a flag is up. -/
def ifSet (flag : Bool) (c : WateringCommand) : List WateringCommand := if flag then [c] else []

/-- One command for a value that is given. -/
def ifGiven {α : Type} (value : Option α) (c : α → WateringCommand) : List WateringCommand :=
  (value.map c).toList

/-- The commands of a line, in the order in which they are carried out. -/
def commands (o : WateringOptions) : List WateringCommand :=
  ifSet o.stop .stop ++
    ifGiven o.line.valve (.setLine .valve) ++
    ifGiven o.line.pump (.setLine .pump) ++
    ifSet o.enable.valve (.enable .valve true) ++
    ifSet o.disable.valve (.enable .valve false) ++
    ifSet o.enable.pump (.enable .pump true) ++
    ifSet o.disable.pump (.enable .pump false) ++
    ifGiven o.activation (.setDuration .activation) ++
    ifGiven o.deactivation (.setDuration .deactivation) ++
    ifGiven o.separation (.setDuration .separation) ++
    ifGiven o.start fun flow => .start (if flow.isEmpty then none else some flow)

end WateringOptions

/-- What can be done with a project file. -/
inductive ProjectAction
  | load (path : String)
  /-- Without a path, the project's own file is meant. -/
  | save (path : Option String)
  deriving DecidableEq, Repr

/-- A command of the console. -/
inductive ConsoleCommand
  | watering (options : WateringOptions)
  | status
  | abort
  | project (action : ProjectAction)
  | version
  | exit
  deriving DecidableEq, Repr

end Irrigation
