import Irrigation.Console.Command
import Irrigation.Text.Blank
import Irrigation.Usage.Switch

/-!
# Console lines

A console line is a command name and its switches. `ConsoleCommand.ofLine` reads one. A request
for help and a misuse end the reading alike, as a `UsageError`.
-/

namespace Irrigation

namespace Console

/-! ## The commands -/

/-- A command as the console knows it: its name, perhaps a short one besides, what it is for, and
the switches it has. -/
structure Entry where
  name : String
  shortName : Option String := none
  about : String
  synopsis : Synopsis := { name := name }
  /-- The names of its switches. -/
  switchNames : List String := []
  /-- The entries of its switches on its help page. -/
  options : List HelpEntry := []
  /-- Reads its switches. -/
  read : HelpPage → List String → Except UsageError ConsoleCommand

/-- A command without switches of its own. -/
def plain (name about : String) (command : ConsoleCommand) : Entry where
  name
  about
  read := fun page words => Form.read ⟨page.synopsis, [.help page]⟩ command words

/-- The switches of a watering line. -/
def wateringSwitches : List (Switch WateringOptions) :=
  [.optional "start" "FLOW" "Start the automatic watering job, optionally naming the flow"
      fun flow o => { o with start := some flow },
    .flag "stop" "Stop the automatic watering job" fun o => { o with stop := true },
    .number "activation-time" "MS" "Time the devices stay active per cycle (ms)"
      fun ms o => { o with activation := some ms },
    .number "deactivation-time" "MS" "Idle time between two activations (ms)"
      fun ms o => { o with deactivation := some ms },
    .number "pumpvalve-deactsep-time" "MS"
      "Delay between closing the valve and stopping the pump (ms)"
      fun ms o => { o with separation := some ms },
    .number "valve-pin-id" "LINE" "Move the water valve to another line"
      fun n o => { o with line := o.line.set .valve (some n) },
    .number "pump-pin-id" "LINE" "Move the water pump to another line"
      fun n o => { o with line := o.line.set .pump (some n) },
    { Switch.flag "enable-valve" "" (fun o => { o with enable := o.enable.set .valve true }) with
      theme := some "valve" },
    { Switch.flag "disable-valve" "" (fun o => { o with disable := o.disable.set .valve true }) with
      theme := some "valve" },
    { Switch.flag "enable-pump" "" (fun o => { o with enable := o.enable.set .pump true }) with
      theme := some "pump" },
    { Switch.flag "disable-pump" "" (fun o => { o with disable := o.disable.set .pump true }) with
      theme := some "pump" }]

/-- The watering command. -/
def watering : Entry where
  name := "auto-watering"
  shortName := some "aws"
  about := "Manage the automatic irrigation of the greenhouse"
  synopsis := { name := "auto-watering", hasOptions := true }
  switchNames := wateringSwitches.map Switch.name
  options := wateringSwitches.map Switch.entry
  read := fun page words =>
    (Form.read ⟨page.synopsis, wateringSwitches ++ [.help page]⟩ {} words).map
      ConsoleCommand.watering

/-- The switches of a project line, of which one has to be given. -/
def projectSwitches : List (Switch (Option ProjectAction)) :=
  [{ Switch.path "load" "PATH" "Load a project file and apply it"
      (fun path _ => some (.load path)) with theme := some "action" },
    { Switch.optional "save" "PATH" "Save the current settings, by default to `<title>.json`"
      (fun path _ => some (.save (if path.isEmpty then none else some path))) with
      theme := some "action" }]

/-- The project command. -/
def project : Entry where
  name := "project"
  about := "Load or save the project file"
  synopsis := { name := "project", choice := projectSwitches.map Switch.title }
  switchNames := projectSwitches.map Switch.name
  options := projectSwitches.map Switch.entry
  read := fun page words => do
    let form : Form (Option ProjectAction) := ⟨page.synopsis, projectSwitches ++ [.help page]⟩
    match ← form.read none words with
    | some action => .ok (.project action)
    | none => .error (form.refuse (.optionMissing page.synopsis.choiceText))

/-- All commands but the one for help. -/
def entries : List Entry :=
  [watering,
    plain "status" "Print the watering system status" .status,
    plain "abort" "Emergency stop of every running system" .abort,
    project,
    plain "version" "Print the controller version" .version,
    plain "exit" "Stop everything and leave" .exit]

/-- The command that a word names. -/
def command? (word : String) : Option Entry :=
  entries.find? fun e => e.name == word || e.shortName == some word

/-! ## Help -/

/-- The name of the command for help, and of the switch that asks for it. -/
def helpName : String := "help"

/-- What the command for help is for. -/
def helpAbout : String := "Print this message or the help of the given subcommand(s)"

/-- The help page of a command. -/
def Entry.page (e : Entry) : HelpPage where
  about := e.about
  synopsis := e.synopsis
  options := e.options ++ [.help]

/-- The help page of the console. -/
def page : HelpPage where
  about := "One console line"
  synopsis := { name := "greenhouse", operands := "<COMMAND>" }
  commands :=
    entries.map (fun e =>
      { name := e.name
        about := e.about ++ ((e.shortName.map fun a => s!" [aliases: {a}]").getD "") }) ++
      [{ name := helpName, about := helpAbout }]
  options := [.help]

/-- The help page of the command for help. -/
def helpPage : HelpPage where
  about := helpAbout
  synopsis := { name := helpName, operands := "[COMMAND]..." }
  arguments := [{ name := "[COMMAND]...", about := "Print help for the subcommand(s)" }]

/-- The help page on a command. -/
def pageOn? (word : String) : Option HelpPage :=
  if word = helpName then some helpPage else (command? word).map Entry.page

/-- The answer to a line that asks for help on some words. No command has commands of its own,
so at most one word makes sense. -/
def help : List String → UsageError
  | [] => .helpAsked page
  | word :: rest =>
    match pageOn? word, rest with
    | some page, [] => .helpAsked page
    | some page, extra :: _ =>
      .misuse (.unknownCommand extra)
        { usage := some page.synopsis.text, hasHelp := page.options.contains .help }
    | none, _ => .misuse (.unknownCommand word) { usage := some page.synopsis.text }

/-! ## Misuse -/

/-- The tips to someone who may mean one of some commands. -/
def commandTips : List String → List String
  | [] => []
  | [name] => [s!"a similar subcommand exists: '{name}'"]
  | names =>
    ["some similar subcommands exist: " ++ ", ".intercalate (names.map fun name => s!"'{name}'")]

/-- The answer to a word that names no command. -/
def refuse (word : String) : UsageError :=
  let names := entries.flatMap (fun e => e.name :: e.shortName.toList) ++ [helpName]
  .misuse (.unknownCommand word)
    { tips := commandTips (Text.similarTo word names), usage := some page.synopsis.text }

/-- The answer to a command behind a word of two dashes. -/
def refuseBehindDashes (name : String) : UsageError :=
  .misuse (.unexpectedWord name) {
    tips := [s!"subcommand '{name}' exists; to use it, remove the '--' before it"]
    usage := some page.synopsis.text }

/-- The switch of a command later in the line that an unknown name may stand for. -/
def laterSwitch? (name : String) (rest : List String) : Option String :=
  rest.findSome? fun word => do
    let e ← entries.find? fun e => e.name == word
    let similar ← (Text.similarTo name (e.switchNames ++ [helpName])).getLast?
    return s!"'{e.name} --{similar}' exists"

/-- The answer to a line that begins with something like a switch. -/
def refuseSwitch (word : String) (rest : List String) : UsageError :=
  match Form.read ⟨page.synopsis, [Switch.help page]⟩ () [word], Word.ofChars word.toList with
  | .error (.misuse (.unexpectedWord shown) advice), .long name _ =>
    let tips := if advice.tips.isEmpty then (laterSwitch? name rest).toList else advice.tips
    .misuse (.unexpectedWord shown) { advice with tips }
  | .error e, _ => e
  | .ok _, _ => refuse word

/-! ## Reading a line -/

/-- Reads the words of a line. -/
def read : List String → Except UsageError ConsoleCommand
  | [] => .error (.noCommand page)
  | "--" :: [] => .error (.noCommand page)
  | "--" :: word :: _ =>
    .error (if (pageOn? word).isSome then refuseBehindDashes word else refuse word)
  | word :: rest =>
    if word = helpName then .error (help rest)
    else
      match command? word, Word.ofChars word.toList with
      | some e, _ => e.read e.page rest
      | none, .plain => .error (refuse word)
      | none, _ => .error (refuseSwitch word rest)

end Console

/-- Reads a line of the console. -/
def ConsoleCommand.ofLine (line : String) : Except UsageError ConsoleCommand :=
  Console.read (Text.words line)

end Irrigation
