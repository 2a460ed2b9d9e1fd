/-!
# Help pages

What a command is for and how it is written: `Synopsis` is the line that shows its use, and
`HelpPage.text` the whole page about it.
-/

namespace Irrigation

/-- How a command is written. -/
structure Synopsis where
  name : String
  /-- Whether there are switches that may be left out. -/
  hasOptions : Bool := false
  /-- The switches of which one has to be given, as help shows them. -/
  choice : List String := []
  /-- What comes at the end. -/
  operands : String := ""
  deriving DecidableEq, Repr

namespace Synopsis

/-- The switches to choose from. -/
def choiceText (s : Synopsis) : String := "<" ++ "|".intercalate s.choice ++ ">"

/-- The synopsis for those who give some switches. -/
def textWith (s : Synopsis) (given : List String) : String :=
  " ".intercalate
    ([s.name] ++ (if given.isEmpty && s.hasOptions then ["[OPTIONS]"] else []) ++
      (given.filter fun title => !s.choice.contains title).eraseDups ++
      (if s.choice.isEmpty then [] else [s.choiceText]) ++
      if s.operands.isEmpty then [] else [s.operands])

/-- The synopsis. -/
def text (s : Synopsis) : String := s.textWith []

end Synopsis

/-- One entry of a list on a help page. -/
structure HelpEntry where
  /-- What is in front of the name. -/
  margin : String := ""
  name : String
  about : String
  deriving DecidableEq, Repr

/-- The help on a command. -/
structure HelpPage where
  about : String
  synopsis : Synopsis
  commands : List HelpEntry := []
  arguments : List HelpEntry := []
  options : List HelpEntry := []
  deriving DecidableEq, Repr

/-- So many blanks. -/
def blanks (n : Nat) : String := String.ofList (List.replicate n ' ')

namespace HelpEntry

/-- The entry of the switch that asks for help. -/
def help : HelpEntry := ⟨"-h, ", "--help", "Print help"⟩

/-- The part of an entry in front of its description. -/
def lead (e : HelpEntry) : String := e.margin ++ e.name

/-- An entry with its description beginning at a column. -/
def line (column : Nat) (e : HelpEntry) : String :=
  "  " ++ e.lead ++ blanks (column - e.lead.length) ++ e.about

/-- An entry with its description below it. -/
def stacked (e : HelpEntry) : String := "  " ++ e.lead ++ "\n" ++ blanks 10 ++ e.about

end HelpEntry

namespace HelpPage

/-- How many characters a line of a page has. -/
def width : Nat := 100

/-- Whether the descriptions of a list stand below its entries: the names take much of a line, and
beside them there is no place for one of the descriptions. -/
def isStacked (entries : List HelpEntry) : Bool :=
  let taken := (entries.map fun e => e.name.length).foldl max 2 + 12
  taken ≤ width && 40 * width < 100 * taken &&
    entries.any fun e => width - taken < e.about.length

/-- A list of entries under a heading; nothing if there are none. -/
def block (heading : String) (entries : List HelpEntry) : List String :=
  if entries.isEmpty then []
  else
    let column := (entries.map fun e => e.lead.length).foldl max 0 + 2
    ["", heading ++ ":"] ++
      entries.map (if isStacked entries then HelpEntry.stacked else HelpEntry.line column)

/-- The whole page. -/
def text (p : HelpPage) : String :=
  "\n".intercalate
    ([p.about, "", "Usage: " ++ p.synopsis.text] ++ block "Commands" p.commands ++
      block "Arguments" p.arguments ++ block "Options" p.options)

end HelpPage

end Irrigation
