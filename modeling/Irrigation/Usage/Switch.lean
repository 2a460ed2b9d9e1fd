import Irrigation.Text.Integer
import Irrigation.Text.Similar
import Irrigation.Usage.Misuse

/-!
# Switches

The options of a command are switches: words such as `--stop`, `--load a.json` or `--load=a.json`
in any order, each at most once. A `Form` is what a command has of them, and `Form.read` reads them
from left to right into a record.

A value that follows as a word of its own belongs to the switch before it, but is looked at only
when the next switch is met or the line ends; that decides which of two faults is reported.
-/

namespace Irrigation

/-- What a switch takes. -/
inductive Takes
  | nothing
  /-- A value; `negative` says whether a word such as `-5` is one. -/
  | value (called : String) (negative : Bool)
  /-- A value or nothing. -/
  | maybe (called : String)
  deriving DecidableEq, Repr

/-- A switch of a command that is read into an `α`. -/
structure Switch (α : Type) where
  name : String
  letter : Option Char := none
  takes : Takes := .nothing
  about : String := ""
  /-- Of the switches with one theme, a line may give only one. -/
  theme : Option String := none
  /-- Puts a value into the record; the value is empty where there is none. -/
  put : String → α → Except UsageError α

namespace Switch

variable {α : Type}

/-- The switch as messages show it. -/
def title (s : Switch α) : String :=
  match s.takes with
  | .nothing => "--" ++ s.name
  | .value called _ => s!"--{s.name} <{called}>"
  | .maybe called => s!"--{s.name} [<{called}>]"

/-- A switch that sets a flag. -/
def flag (name about : String) (put : α → α) : Switch α where
  name
  about
  put := fun _ a => .ok (put a)

/-- A switch with a number, negative ones included. -/
def number (name called about : String) (put : Int → α → α) : Switch α where
  name
  takes := .value called true
  about
  put := fun text a =>
    match Text.readInt64 text with
    | .ok n => .ok (put n a)
    | .error e => .error (.misuse (.invalidValue text s!"--{name} <{called}>" e.message) {})

/-- A switch with a text that is not empty. -/
def path (name called about : String) (put : String → α → α) : Switch α where
  name
  takes := .value called false
  about
  put := fun text a =>
    if text.isEmpty then .error (.misuse (.valueMissing s!"--{name} <{called}>") {})
    else .ok (put text a)

/-- A switch whose value may be left out, which is the same as an empty one. -/
def optional (name called about : String) (put : String → α → α) : Switch α where
  name
  takes := .maybe called
  about
  put := fun text a => .ok (put text a)

/-- The switch as a help page lists it. -/
def entry (s : Switch α) : HelpEntry :=
  match s.letter with
  | some c => ⟨String.ofList ['-', c] ++ ", ", s.title, s.about⟩
  | none => ⟨"    ", s.title, s.about⟩

/-- The switch that asks for a help page. -/
def help (page : HelpPage) : Switch α where
  name := "help"
  letter := some 'h'
  about := "Print help"
  put := fun _ _ => .error (.helpAsked page)

end Switch

/-! ## Words -/

/-- What a word of a command line looks like. -/
inductive Word
  /-- Two dashes and a name, perhaps with a value behind an equals sign. -/
  | long (name : String) (value : Option String)
  /-- A dash and letters. -/
  | letters (letters : List Char)
  | plain
  deriving DecidableEq, Repr

namespace Word

/-- Splits the characters behind two dashes at the first equals sign. -/
def splitValue (cs : List Char) : String × Option String :=
  match cs.dropWhile (· != '=') with
  | [] => (String.ofList cs, none)
  | _ :: value => (String.ofList (cs.takeWhile (· != '=')), some (String.ofList value))

/-- What a word looks like. -/
def ofChars : List Char → Word
  | '-' :: '-' :: cs =>
    let (name, value) := splitValue cs
    .long name value
  | '-' :: c :: cs => .letters (c :: cs)
  | _ => .plain

/-- Whether characters have the form of a number: digits, among them at most one point, which is
not the first and comes before an exponent, and at most one sign of an exponent, which is neither
the first nor the last. -/
def isNumeric (first point exponent : Bool) : List Char → Bool
  | [] => true
  | c :: rest =>
    if c.isDigit then isNumeric false point exponent rest
    else if c = '.' ∧ !first ∧ !point ∧ !exponent then isNumeric false true exponent rest
    else if (c = 'e' ∨ c = 'E') ∧ !first ∧ !exponent then
      !rest.isEmpty && isNumeric false point true rest
    else false

/-- Whether characters behind a dash make a negative number. -/
def isNumber (cs : List Char) : Bool := isNumeric true false false cs

end Word

/-! ## Reading -/

/-- What can be given to a command: how it is written, and the switches it has. -/
structure Form (α : Type) where
  synopsis : Synopsis
  switches : List (Switch α)

/-- How far a line has been read. -/
structure Reading (α : Type) where
  record : α
  /-- The switches given, in order. -/
  given : List (Switch α) := []
  /-- A switch that may take the next word, or has taken one that was not looked at yet. -/
  pending : Option (Switch α × Option String) := none

namespace Reading

variable {α : Type}

/-- Whether a switch was given. -/
def has (r : Reading α) (s : Switch α) : Bool := r.given.any fun other => other.name == s.name

/-- The switches given, with the pending one if it has what it needs. One that was given twice is
none of them. -/
def allGiven (r : Reading α) : List (Switch α) :=
  match r.pending with
  | none => r.given
  | some (s, value) =>
    match s.takes, value with
    | .value .., none => r.given
    | _, _ => if r.has s then r.given.filter fun other => other.name != s.name else r.given ++ [s]

/-- Whether the next word may be a value. -/
def awaitsValue (r : Reading α) : Bool :=
  match r.pending with
  | some (_, none) => true
  | _ => false

/-- Whether the next word may be a negative number. -/
def awaitsNumber (r : Reading α) : Bool :=
  match r.pending with
  | some (s, none) =>
    match s.takes with
    | .value _ negative => negative
    | _ => false
  | _ => false

/-- Gives the pending switch its value. -/
def fill (r : Reading α) (value : String) : Reading α :=
  { r with pending := r.pending.map fun p => (p.1, some value) }

/-- Another switch of the same theme. -/
def rival? (s : Switch α) (given : List (Switch α)) : Option (Switch α) :=
  s.theme.bind fun theme =>
    given.find? fun other => other.name != s.name && other.theme == some theme

/-- The first switch that has a rival, with the rival. -/
def conflict? (r : Reading α) : Option (Switch α × Switch α) :=
  r.given.findSome? fun s => (rival? s r.given).map fun other => (s, other)

end Reading

namespace Form

variable {α : Type}

/-- The answer to a misuse by someone who gives some switches. -/
def refuse (f : Form α) (what : Misuse) (given : List (Switch α) := []) : UsageError :=
  .misuse what { usage := some (f.synopsis.textWith (given.map Switch.title)) }

/-- The switch that an unknown name may stand for. -/
def similar? (f : Form α) (name : String) : Option (Switch α) :=
  (Text.similarTo name (f.switches.map Switch.name)).getLast?.bind fun other =>
    f.switches.find? fun s => s.name == other

/-- The answer to a switch that there is not. -/
def refuseSwitch (f : Form α) (r : Reading α) (name : String) : UsageError :=
  let meant := (f.similar? name).toList
  .misuse (.unexpectedWord ("--" ++ name)) {
    tips := meant.map fun s => s!"a similar argument exists: '--{s.name}'"
    usage := some (f.synopsis.textWith ((r.allGiven ++ meant).map Switch.title)) }

/-- Puts a switch into the record. -/
def accept (f : Form α) (r : Reading α) (s : Switch α) (value : Option String) :
    Except UsageError (Reading α) :=
  match s.takes, value with
  | .value .., none => .error (.misuse (.valueMissing s.title) {})
  | _, _ =>
    if r.has s then .error (f.refuse (.repeated s.title))
    else (s.put (value.getD "") r.record).map fun record =>
      { r with record, given := r.given ++ [s] }

/-- Puts the pending switch into the record. -/
def settle (f : Form α) (r : Reading α) : Except UsageError (Reading α) :=
  match r.pending with
  | none => .ok r
  | some (s, value) => f.accept { r with pending := none } s value

/-- Reads a switch, with the value attached to it if there is one. -/
def enter (f : Form α) (r : Reading α) (s : Switch α) (attached : Option String) :
    Except UsageError (Reading α) :=
  match s.takes, attached with
  | .nothing, some value => .error (f.refuse (.valueRefused value s.title) (r.given ++ [s]))
  | .nothing, none => do f.accept (← f.settle r) s none
  | _, some value => do f.accept (← f.settle r) s (some value)
  | _, none => do return { ← f.settle r with pending := some (s, none) }

/-- Reads the letters behind a dash. -/
def letters (f : Form α) : List Char → Reading α → Except UsageError (Reading α)
  | [], r => .ok r
  | c :: rest, r =>
    match f.switches.find? fun s => s.letter == some c with
    | none => .error (f.refuse (.unexpectedWord (String.ofList ['-', c])))
    | some s => do f.letters rest (← f.enter r s none)

/-- Reads one word. -/
def word (f : Form α) (r : Reading α) (w : String) : Except UsageError (Reading α) :=
  match Word.ofChars w.toList with
  | .long name value =>
    match f.switches.find? fun s => s.name == name with
    | none => .error (f.refuseSwitch r name)
    | some s => f.enter r s value
  | .letters cs =>
    if r.awaitsNumber && Word.isNumber cs then .ok (r.fill w) else f.letters cs r
  | .plain => if r.awaitsValue then .ok (r.fill w) else .error (f.refuse (.unexpectedWord w))

/-- Reads all words. Behind a word of two dashes there are only plain words, which no command
takes. -/
def words (f : Form α) : List String → Reading α → Except UsageError (Reading α)
  | [], r => f.settle r
  | "--" :: [], r => f.settle r
  | "--" :: extra :: _, _ => .error (f.refuse (.unexpectedWord extra))
  | w :: rest, r => do f.words rest (← f.word r w)

/-- Reads the words of a command line into a record. -/
def read (f : Form α) (start : α) (words : List String) : Except UsageError α := do
  let r ← f.words words { record := start }
  match r.conflict? with
  | some (s, other) =>
    .error (f.refuse (.conflict s.title other.title)
      (r.given.filter fun given => given.name != other.name))
  | none => .ok r.record

end Form

end Irrigation
