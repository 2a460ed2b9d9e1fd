import Irrigation.Console.Line
import Irrigation.Program.Arguments
import Irrigation.Program.Stream
import Irrigation.Service

/-!
# Runs of the program

A run wires the system from a configuration, applies a project if one is named, and carries out
the lines of its input until there are no more or one leaves the console. `Run.start` begins a
run, `Service.obey` carries out a line, and `Program.run` does everything on an input that is
known as a whole.
-/

namespace Irrigation

/-! ## Failures -/

/-- What the program was about to do when it failed, and the causes, the nearest first. -/
structure Failure where
  context : String
  causes : List String
  deriving DecidableEq, Repr

namespace Failure

/-- A number with blanks before it, five characters wide. -/
def rankText (n : Nat) : String :=
  let digits := s!"{n}"
  String.ofList (List.replicate (5 - digits.length) ' ') ++ digits

/-- The causes as a list, numbered if there are several. -/
def causeLines (f : Failure) : List String :=
  match f.causes with
  | [cause] => ["    " ++ hang "    " cause]
  | causes => causes.mapIdx fun i cause => rankText i ++ ": " ++ hang "       " cause

/-- The text of a failure. -/
def text (f : Failure) : String :=
  "\n".intercalate ([s!"Error: {f.context}", "", "Caused by:"] ++ f.causeLines)

end Failure

/-- The texts of an error and of what caused it. -/
def Error.chain (e : Error) : List String := e.message :: e.causes

/-! ## Beginning and end -/

/-- A run of the program: the console is in use, or all is over. -/
inductive Run
  | active (service : Service)
  | over (code : Nat) (journal : List Effect)

/-- What has happened so far. -/
def Service.journal (s : Service) : List Effect := s.system.rig.journal.map Prod.snd

namespace Run

/-- Ends a run without a service. -/
def fail (f : Failure) (journal : List Effect) : Run :=
  .over 1 (journal ++ [.complained f.text])

/-- Ends a run in order. -/
def close (s : Service) : Run := .over 0 (s.onSystem Watering.retire).journal

/-- Ends a run with a failure. -/
def abandon (f : Failure) (s : Service) : Run := fail f (s.onSystem Watering.retire).journal

/-- What every run begins with. -/
def greeting : Effect := .log .info s!"{programName} v{Project.currentVersion}"

/-- Begins to use the console. -/
def invite (s : Service) : Run :=
  .active (record s (.printed "Type 'help' for a list of the available commands."))

/-- Wires the system on a new chip. -/
def wire (c : Config) : Except (LineError × Rig) Service :=
  let rig := Rig.openChip c.chipPath Wiring.chipLines
  let rig := { rig with journal := (.caller, greeting) :: rig.journal }
  (Watering.wire rig c.pins c.timing c.enabled).map fun system => { system, limits := c.limits }

/-- Begins a run with a configuration. -/
def startWith (c : Config) (project : Option String) : FileTask Run :=
  match wire c with
  | .error (e, rig) =>
    return fail ⟨"requesting the valve and pump lines", [e.message]⟩ (rig.journal.map Prod.snd)
  | .ok s =>
    match project with
    | none => return invite s
    | some path => do
      match ← s.loadProject path with
      | (.ok (), s) => return invite s
      | (.error e, s) => return abandon ⟨s!"loading project {path}", e.chain⟩ s

/-- Begins a run. -/
def start (a : Arguments) : FileTask Run :=
  match a.config with
  | none => startWith Config.initial a.project
  | some path => do
    match ← Config.load path with
    | .ok c => startWith c a.project
    | .error e => return fail ⟨s!"loading configuration {path}", e.chain⟩ [greeting]

end Run

/-! ## Lines of input -/

/-- The entry of the journal that answers a line which is not carried out. -/
def UsageError.answer (e : UsageError) : Effect :=
  match e with
  | .helpAsked _ => .printed e.text
  | _ => .complained e.text

namespace Service

/-- Tells the operator that a command failed. -/
def tellFailure (e : Error) (s : Service) : Service :=
  notify (.notice .error e.message) (log .error s!"Console: {e.message}" s)

/-- Carries out a line. The flag says that the console is to be left. -/
def obey (line : String) (s : Service) : FileTask (Bool × Service) :=
  let line := Text.trim line
  if line.isEmpty then return (false, s)
  else
    match ConsoleCommand.ofLine line with
    | .error e => return (false, record s e.answer)
    | .ok command => do
      match ← s.execute command with
      | (.ok .done, s) => return (false, s)
      | (.ok (.print text), s) => return (false, record s (.printed text))
      | (.ok .exit, s) => return (true, record s (.printed "Goodbye."))
      | (.error e, s) => return (false, s.tellFailure e)

/-- What is done at the end of the input. -/
def finish (s : Service) : Service := (log .info "Console: end of input, tearing down" s).shutdown

end Service

namespace Run

/-- The failure of reading a line. -/
def unreadable (e : FileError) : Failure := ⟨"reading console input", [e.message]⟩

/-- Carries out lines to the end of a run. A line that cannot be read ends it. -/
def converse : List (Except FileError String) → Service → FileTask Run
  | [], s => return close s.finish
  | .error e :: _, s => return abandon (unreadable e) s
  | .ok line :: rest, s => do
    match ← s.obey line with
    | (true, s) => return close s
    | (false, s) => converse rest s

end Run

/-! ## Whole runs -/

/-- A run that is over. -/
structure Result where
  code : Nat
  output : String
  errors : String
  deriving DecidableEq, Repr

namespace Program

/-- The text of a line. -/
def lineText (bytes : List UInt8) : Except FileError String :=
  match String.fromUTF8? ⟨bytes.toArray⟩ with
  | some text => .ok text
  | none => .error .notUtf8

/-- The lines of an input. -/
def inputLines (input : ByteArray) : List (Except FileError String) :=
  (input.toList.splitOnP fun b => b == 10).map lineText

/-- What becomes of a run whose arguments are not carried out. -/
def decline : UsageError → Result
  | .helpAsked page => ⟨0, page.text ++ "\n", ""⟩
  | .versionAsked => ⟨0, versionText ++ "\n", ""⟩
  | e => ⟨2, "", e.text ++ "\n"⟩

/-- What a run that is over leaves behind. -/
def result (verbosity : Level) : Run → Result
  | .over code journal => ⟨code, outputOf journal, errorsOf verbosity journal⟩
  | .active s => ⟨0, outputOf s.journal, errorsOf verbosity s.journal⟩

/-- Runs the program on a whole input. -/
def run (arguments : List String) (input : ByteArray) : FileTask Result :=
  match Arguments.read arguments with
  | .error e => return decline e
  | .ok a => do
    match ← Run.start a with
    | .active s => return result a.verbosity (← Run.converse (inputLines input) s)
    | ended => return result a.verbosity ended

end Program

end Irrigation
