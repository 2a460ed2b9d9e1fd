import Irrigation.Program.Run

/-!
# The command line program

The outer layer: files, standard streams and the clock. While no line of input is there, the
worker of a job is taken from step to step, and is left alone for as long as it waits.
-/

namespace Irrigation.CommandLine

/-- The file error that an error of the operating system is. -/
def fileError : IO.Error → FileError
  | .noFileOrDirectory .. => .notFound
  | .inappropriateType _ 21 _ => .isDirectory
  | .inappropriateType _ 20 _ => .notDirectory
  | e => .other (toString e)

/-- Tries something that has to do with files. -/
def attempt {α : Type} (act : IO α) : IO (Except FileError α) := do
  try
    return .ok (← act)
  catch e =>
    return .error (fileError e)

/-- Reads a file as text. -/
def readText (path : String) : IO (Except FileError String) := do
  match ← attempt (IO.FS.readBinFile path) with
  | .error e => return .error e
  | .ok bytes =>
    match String.fromUTF8? bytes with
    | some text => return .ok text
    | none => return .error .notUtf8

/-- Does a task with the files there are. -/
def perform {α : Type} : FileTask α → IO α
  | .done a => return a
  | .read path next => do perform (next (← readText path))
  | .write path content next => do perform (next (← attempt (IO.FS.writeFile path content)))

/-- Writes an entry of the journal to its stream. -/
def write (verbosity : Level) (e : Effect) : IO Unit := do
  let out ← IO.getStdout
  out.putStr e.toOutput
  out.flush
  (← IO.getStderr).putStr (e.toErrors verbosity)

/-- Lets the time pass that a wait took which nothing cut short. -/
def passTime : Effect → IO Unit
  | .waited _ ms true => IO.sleep (UInt32.ofNat (min ms.toNat (UInt32.size - 1)))
  | _ => return

/-- Writes what has happened, and forgets it. -/
def writeJournal (verbosity : Level) (inTime : Bool) (s : Service) : IO Service := do
  for e in s.journal do
    if inTime then passTime e
    write verbosity e
  let rig := { s.system.rig with journal := [] }
  return { s with system := { s.system with rig } }

/-- Ends a run that is over. -/
def finish (verbosity : Level) (code : Nat) (journal : List Effect) : IO UInt32 := do
  for e in journal do
    passTime e
    write verbosity e
  return UInt32.ofNat code

/-- Reads a line in the background. -/
def nextLine : IO (Task (Except IO.Error String)) := do
  let input ← IO.getStdin
  IO.asTask input.getLine

/-- Whether the worker has something to do now, if its last step was at a time. -/
def isDue (since now : Nat) (s : Watering) : Bool :=
  match s.point?.bind Point.wait? with
  | some (ms, _) => since + ms.toNat ≤ now
  | none => s.isWorking

/-- How long to sleep when there is nothing to do, in milliseconds. -/
def nap : UInt32 := 5

/-- Uses the console to the end of a run. -/
partial def converse (verbosity : Level) (line : Task (Except IO.Error String)) (since : Nat)
    (s : Service) : IO UInt32 := do
  let now ← IO.monoMsNow
  let conclude : Run → IO UInt32
    | .over code journal => finish verbosity code journal
    | .active _ => return 0
  if ← IO.hasFinished line then
    match line.get with
    | .error e => conclude (.abandon (Run.unreadable (fileError e)) s)
    | .ok "" => conclude (.close s.finish)
    | .ok text =>
      match ← perform (s.obey text) with
      | (true, s) => conclude (.close s)
      | (false, s) => converse verbosity (← nextLine) since (← writeJournal verbosity true s)
  else if isDue since now s.system then
    converse verbosity line now (← writeJournal verbosity false (s.onSystem Watering.step))
  else
    IO.sleep nap
    converse verbosity line since s

end Irrigation.CommandLine

open Irrigation CommandLine in
/-- Runs the controller. -/
def main (arguments : List String) : IO UInt32 := do
  match Arguments.read arguments with
  | .error e =>
    let answer := Program.decline e
    IO.print answer.output
    IO.eprint answer.errors
    return UInt32.ofNat answer.code
  | .ok a =>
    match ← perform (Run.start a) with
    | .over code journal => finish a.verbosity code journal
    | .active s =>
      converse a.verbosity (← nextLine) (← IO.monoMsNow) (← writeJournal a.verbosity false s)
