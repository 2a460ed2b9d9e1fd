/-!
# Control characters and sequences

A text for a terminal may hold characters and whole sequences that steer the terminal and are not
seen. `visible` is what is left of a text without them. A sequence begins with an escape
character; `Control.after` says how it goes on and where it ends.

A line break or another blank control inside a sequence is written, and so is what follows, up to
the next character that is not: from there on the sequence is continued.
-/

namespace Irrigation.Text

/-- What a terminal is reading. -/
inductive Control
  /-- Text. -/
  | text
  /-- What follows an escape character. -/
  | escape
  /-- The end of an escape sequence that has marks between its first character and its last. -/
  | marked
  /-- A sequence of parameters, up to a letter. -/
  | parameters
  /-- The parameters in front of a string for a device. -/
  | deviceParameters
  /-- A string for a device. -/
  | device
  /-- A string for the operating system, up to a bell. -/
  | system
  /-- A string of another kind. -/
  | string
  deriving DecidableEq, Repr

namespace Control

/-- Whether a character lies between two others, which count. -/
def within (low high c : Char) : Bool := low ≤ c && c ≤ high

/-- Whether a character, by its bytes, ends a string for a device. -/
def closes (c : Char) : Bool := (String.utf8EncodeChar c).contains 0x9c

/-- What is read after a character. -/
def after (c : Char) (mode : Control) : Control :=
  if c = '\x1b' then .escape
  else if c = '\x18' ∨ c = '\x1a' then .text
  else
    match mode with
    | .text => .text
    | .escape =>
      if within ' ' '/' c then .marked
      else if c = '[' then .parameters
      else if c = ']' then .system
      else if c = 'P' then .deviceParameters
      else if c = 'X' ∨ c = '^' ∨ c = '_' then .string
      else if within '0' '~' c then .text
      else .escape
    | .marked => if within '0' '~' c then .text else .marked
    | .parameters => if within '@' '~' c then .text else .parameters
    | .deviceParameters =>
      if c = ':' || within '@' '~' c then .device else .deviceParameters
    | .device => if closes c then .text else .device
    | .system => if c = '\x07' then .text else .system
    | .string => if closes c then .text else .string

/-- Whether blank controls are written where they stand. -/
def admitsBlanks : Control → Bool
  | .text | .escape | .marked | .parameters => true
  | _ => false

end Control

/-- Whether a character is a control that leaves a blank. -/
def isBlankControl (c : Char) : Bool := c = '\t' || c = '\n' || c = '\x0c' || c = '\r'

/-- Whether a character is written if it is read as text. -/
def isWritten (c : Char) : Bool := (' ' ≤ c && c ≠ '\x7f') || isBlankControl c

/-- A terminal under way. -/
structure Screen where
  mode : Control := .text
  /-- Whether the last character was written. -/
  writing : Bool := false
  /-- What has been written. -/
  shown : String := ""
  deriving Repr

namespace Screen

/-- Reads a character. -/
def put (s : Screen) (c : Char) : Screen :=
  if s.writing && isWritten c then
    { s with mode := if c < '\x80' then s.mode else .text, shown := s.shown.push c }
  else if (s.mode = .text && isWritten c) || (s.mode.admitsBlanks && isBlankControl c) then
    { s with writing := true, shown := s.shown.push c }
  else { s with mode := s.mode.after c, writing := false }

end Screen

/-- A text without its control characters and sequences. -/
def visible (text : String) : String := (text.toList.foldl Screen.put {}).shown

end Irrigation.Text
