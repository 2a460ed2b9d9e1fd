import Irrigation.Event
import Irrigation.Usage.Switch

/-!
# Arguments

The arguments that the program is started with: which files to begin with, and how much is
logged.
-/

namespace Irrigation

/-- What the program is started with. -/
structure Arguments where
  config : Option String := none
  project : Option String := none
  /-- What is less important than this is not logged. -/
  verbosity : Level := .info
  deriving DecidableEq, Repr

namespace Arguments

/-- The switch that asks for the version. -/
def versionSwitch : Switch Arguments where
  name := "version"
  letter := some 'V'
  about := "Print version"
  put := fun _ _ => .error .versionAsked

/-- The switches that set something. -/
def settings : List (Switch Arguments) :=
  [.path "config" "PATH" "JSON file overriding the built-in configuration"
      fun path a => { a with config := some path },
    .path "project" "PATH" "Project file to load at startup"
      fun path a => { a with project := some path },
    { Switch.flag "verbose" "Debug logging" (fun a => { a with verbosity := .debug }) with
      letter := some 'v', theme := some "verbosity" },
    { Switch.flag "quiet" "Only warnings and errors" (fun a => { a with verbosity := .warn }) with
      letter := some 'q', theme := some "verbosity" }]

/-- The help page of the program. -/
def page : HelpPage where
  about := "Greenhouse irrigation controller"
  synopsis := { name := "greenhouse", hasOptions := true }
  options := settings.map Switch.entry ++ [.help, versionSwitch.entry]

/-- What can be given to the program. -/
def form : Form Arguments := ⟨page.synopsis, settings ++ [.help page, versionSwitch]⟩

/-- Reads the arguments. -/
def read (words : List String) : Except UsageError Arguments := form.read {} words

end Arguments

end Irrigation
