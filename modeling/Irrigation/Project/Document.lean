import Irrigation.Project.Upgrade

/-!
# Project documents

A project is a document with a title, a version, and a section for each component that stores
something. Sections that the controller does not know are kept as they are. A document that is
read from a file is brought up to date first (`Document.fix`): it gets a title if it has none, a
legacy flow is converted, and the version is stamped.
-/

namespace Irrigation.Project

open Json

/-- The version of the controller, which is stamped on every document. -/
def currentVersion : String := "0.3.0"

/-- The title of a document that has none. -/
def unknownTitle : String := "unknown-project"

/-- The member that holds the title. -/
def titleKey : String := "title"

/-- The member that holds the version. -/
def versionKey : String := "version"

/-- A project: the members of an object, in the order of their names. -/
structure Document where
  root : Members
  deriving Repr

namespace Document

/-- An empty project. -/
def new (title : String) : Document :=
  ⟨Members.ofList [(titleKey, .text title), (versionKey, .text currentVersion)]⟩

/-- The project that a value is. -/
def ofValue : Value → Except ProjectError Document
  | .object root => .ok ⟨root⟩
  | v => .error (.malformed s!"project root must be an object, found {v.kind}")

/-- Reads the text of a project. -/
def ofText (text : String) : Except ProjectError Document :=
  match Value.read text with
  | .ok v => ofValue v
  | .error f => .error (.json (.faulty f))

/-- The text of a project. -/
def text (d : Document) : String := (Value.object d.root).pretty

/-- The title, if it is a text. -/
def title? (d : Document) : Option String := (d.root.find? titleKey).bind Value.text?

/-- The version, if it is a text. -/
def version? (d : Document) : Option String := (d.root.find? versionKey).bind Value.text?

/-- The title, or the one of a document without. -/
def displayTitle (d : Document) : String := d.title?.getD unknownTitle

/-- The file that a project is saved to unless another is named. -/
def defaultPath (d : Document) : String := d.displayTitle ++ ".json"

/-- The section of a name. -/
def section? (d : Document) (key : String) : Option Value := d.root.find? key

/-- Sets a section. -/
def setSection (d : Document) (key : String) (v : Value) : Document := ⟨d.root.insert key v⟩

/-- Replaces a section that is there; `none` if it is not. -/
def replaceSection? (d : Document) (key : String) (v : Value) : Option Document :=
  if d.root.contains key then some (d.setSection key v) else none

/-- Converts a legacy flow. Says whether there was one. -/
def upgrade (d : Document) : Except ProjectError (Bool × Document) :=
  (upgradeRoot d.root).map fun
    | some root => (true, ⟨root⟩)
    | none => (false, d)

/-- Sets a text member unless it has the value already. -/
def stamp (d : Document) (key value : String) : Document :=
  if (d.root.find? key).bind Value.text? = some value then d
  else ⟨d.root.insert key (.text value)⟩

variable {σ : Type} [Journaling σ]

/-- Gives a document without a title one. -/
def fixTitle (d : Document) (s : σ) : Document × σ :=
  match d.title? with
  | some _ => (d, s)
  | none =>
    (d.setSection titleKey (.text unknownTitle),
      log .warn s!"Project: document has no title, using '{unknownTitle}'" s)

/-- Brings a document up to date: title, layout, version. A layout that cannot be converted ends
it, and the title stays filled in. -/
def fix (d : Document) (s : σ) : Except ProjectError Unit × Document × σ :=
  let (d, s) := d.fixTitle s
  match d.upgrade with
  | .error e => (.error e, d, s)
  | .ok (upgraded, d) =>
    let s := if upgraded then
      log .info "Project: upgraded legacy automatic watering layout" s else s
    (.ok (), d.stamp versionKey currentVersion, s)

/-- The document that the content of a file holds, brought up to date. -/
def ofFile (content : Except FileError String) (s : σ) : Except ProjectError Document × σ :=
  match content with
  | .error e => (.error (.file e), s)
  | .ok text =>
    match ofText text with
    | .error e => (.error e, s)
    | .ok d =>
      match d.fix s with
      | (.error e, _, s) => (.error e, s)
      | (.ok (), d, s) => (.ok d, s)

/-- Reads a project file. -/
def load (path : String) (s : σ) : FileTask (Except ProjectError Document × σ) := do
  let s := log .info s!"Project: loading {path}" s
  return ofFile (← FileTask.readText path) s

/-- Writes a project file. -/
def save (d : Document) (path : String) (s : σ) : FileTask (Except ProjectError Unit × σ) := do
  match ← FileTask.writeText path d.text with
  | .error e => return (.error (.file e), s)
  | .ok () => return (.ok (), log .info s!"Project: saved {path}" s)

end Document

end Irrigation.Project
