import Irrigation.Text.Control
import Irrigation.Usage.Page

/-!
# Misuse

A command line that is not carried out is answered by a `UsageError`: the help that it asks for,
or what is wrong with it, with advice. `UsageError.headline` is the first line of the answer and
`UsageError.text` all of it. Words of the line are shown without the controls in them.
-/

namespace Irrigation

/-- What is wrong with a command line. Options are named as help shows them. -/
inductive Misuse
  | unknownCommand (word : String)
  /-- A word has no place where it stands, or an option is none of the command's. -/
  | unexpectedWord (word : String)
  | valueMissing (option : String)
  | invalidValue (value option reason : String)
  /-- An option that takes no value has one. -/
  | valueRefused (value option : String)
  | repeated (option : String)
  | conflict (option other : String)
  /-- None of the options is given of which there has to be one. -/
  | optionMissing (choice : String)
  deriving DecidableEq, Repr

namespace Misuse

open Text (visible)

/-- The first line. -/
def headline : Misuse → String
  | .unknownCommand word => s!"error: unrecognized subcommand '{visible word}'"
  | .unexpectedWord word => s!"error: unexpected argument '{visible word}' found"
  | .valueMissing option => s!"error: a value is required for '{option}' but none was supplied"
  | .invalidValue value option reason =>
    s!"error: invalid value '{visible value}' for '{option}': {reason}"
  | .valueRefused value option =>
    s!"error: unexpected value '{visible value}' for '{option}' found; no more were expected"
  | .repeated option => s!"error: the argument '{option}' cannot be used multiple times"
  | .conflict option other => s!"error: the argument '{option}' cannot be used with '{other}'"
  | .optionMissing _ => "error: the following required arguments were not provided:"

/-- All lines. -/
def lines (m : Misuse) : List String :=
  match m with
  | .optionMissing choice => [m.headline, "  " ++ choice]
  | _ => [m.headline]

end Misuse

/-- What is said besides what is wrong. -/
structure Advice where
  /-- What may have been meant. -/
  tips : List String := []
  /-- How the command is written. -/
  usage : Option String := none
  /-- Whether there is a switch that asks for help. -/
  hasHelp : Bool := true
  deriving DecidableEq, Repr

namespace Advice

/-- The advice as lines, each part after an empty one. -/
def lines (a : Advice) : List String :=
  (if a.tips.isEmpty then [] else [""] ++ a.tips.map ("  tip: " ++ ·)) ++
    (match a.usage with
      | some usage => ["", "Usage: " ++ usage]
      | none => []) ++
    if a.hasHelp then ["", "For more information, try '--help'."] else []

end Advice

/-- Why a command line is not carried out. -/
inductive UsageError
  /-- The line asks for help. -/
  | helpAsked (page : HelpPage)
  /-- The line asks for the version. -/
  | versionAsked
  /-- There is no command. -/
  | noCommand (page : HelpPage)
  | misuse (what : Misuse) (advice : Advice)
  deriving DecidableEq, Repr

namespace UsageError

/-- The first line of the answer. -/
def headline : UsageError → String
  | .helpAsked page => page.about
  | .versionAsked => "version"
  | .noCommand page => page.about
  | .misuse what _ => what.headline

/-- The whole answer. -/
def text : UsageError → String
  | .helpAsked page => page.text
  | .versionAsked => "version"
  | .noCommand page => page.text
  | .misuse what advice => "\n".intercalate (what.lines ++ advice.lines)

end UsageError

end Irrigation
