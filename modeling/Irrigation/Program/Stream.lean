import Irrigation.Journal
import Irrigation.Text.Control

/-!
# Output streams

A journal comes out on two streams. Events and texts for the operator go to the output, log
records and complaints to the error stream, each in the order of the journal. Log records are
written without the controls in them.
-/

namespace Irrigation

namespace Level

/-- The tag of a log record: the word for the level in brackets, five characters wide. -/
def logTag (level : Level) : String :=
  let word := level.word
  "[" ++ word ++ String.ofList (List.replicate (5 - word.length) ' ') ++ "]"

/-- Whether a record of this level is written if `verbosity` is the least important one that
is. -/
def isLoggedAt (level verbosity : Level) : Bool := level.rank ≤ verbosity.rank

end Level

/-- A text whose lines after the first begin with `margin`. -/
def hang (margin text : String) : String := ("\n" ++ margin).intercalate (text.splitOn "\n")

namespace Effect

/-- A text as a line of a stream. -/
def line (text : String) : String := text ++ "\n"

/-- A log record on a stream. The line break at its end is missing if a control sequence was not
finished before it. -/
def logLine (level : Level) (text : String) : String :=
  level.logTag ++ " " ++ Text.visible (line (hang "    " text))

/-- What an entry of the journal adds to the output. -/
def toOutput : Effect → String
  | .emitted event => line event.render
  | .printed text => line text
  | _ => ""

/-- What an entry of the journal adds to the error stream. -/
def toErrors (verbosity : Level) : Effect → String
  | .log level text => if level.isLoggedAt verbosity then logLine level text else ""
  | .complained text => line text
  | _ => ""

end Effect

/-- All that a journal writes to the output. -/
def outputOf (journal : List Effect) : String := String.join (journal.map Effect.toOutput)

/-- All that a journal writes to the error stream. -/
def errorsOf (verbosity : Level) (journal : List Effect) : String :=
  String.join (journal.map (Effect.toErrors verbosity))

end Irrigation
