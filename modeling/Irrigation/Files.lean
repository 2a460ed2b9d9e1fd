import Irrigation.Journal

/-!
# Files

Work that needs files is described by `FileTask`: a task either is done, or reads a file and goes
on with its content, or writes one and goes on with the outcome. Who runs a task decides where
files are. `FileTree` is a tree of files in memory, with the rules of an ordinary file system for
paths, and `FileTask.run` runs a task on it.
-/

namespace Irrigation

/-- Why a file cannot be read or written. -/
inductive FileError
  | notFound
  | isDirectory
  | notDirectory
  | nameTooLong
  | nulInName
  | notUtf8
  /-- A fault with a text of its own. -/
  | other (text : String)
  deriving DecidableEq, Repr

/-- The text of a file error. -/
def FileError.message : FileError → String
  | .notFound => "No such file or directory (os error 2)"
  | .isDirectory => "Is a directory (os error 21)"
  | .notDirectory => "Not a directory (os error 20)"
  | .nameTooLong => "File name too long (os error 36)"
  | .nulInName => "file name contained an unexpected NUL byte"
  | .notUtf8 => "stream did not contain valid UTF-8"
  | .other text => text

/-! ## Tasks -/

/-- Work that reads and writes files on its way to an `α`. -/
inductive FileTask (α : Type)
  | done (a : α)
  | read (path : String) (next : Except FileError String → FileTask α)
  | write (path : String) (content : String) (next : Except FileError Unit → FileTask α)

namespace FileTask

variable {α β : Type}

/-- Goes on with what a task ends with. -/
def bind : FileTask α → (α → FileTask β) → FileTask β
  | .done a, f => f a
  | .read path next, f => .read path fun r => (next r).bind f
  | .write path content next, f => .write path content fun r => (next r).bind f

instance : Monad FileTask where
  pure := .done
  bind := bind

/-- Reads a file as text. -/
def readText (path : String) : FileTask (Except FileError String) := .read path .done

/-- Writes a text to a file. -/
def writeText (path content : String) : FileTask (Except FileError Unit) :=
  .write path content .done

end FileTask

/-! ## Files in memory -/

/-- The names on the way from the root to a file or directory. -/
abbrev FilePath := List String

/-- Files and directories in memory, and the directory that relative paths start from. -/
structure FileTree where
  directories : List FilePath
  files : List (FilePath × ByteArray)
  workingDirectory : FilePath

namespace FileTree

/-- What a path leads to. -/
inductive Place
  | file (here : FilePath) (content : ByteArray)
  | directory
  /-- No file, in a directory that exists. -/
  | vacant (here : FilePath)

/-- The content of a file. -/
def file? (t : FileTree) (here : FilePath) : Option ByteArray := t.files.lookup here

/-- Whether there is such a directory. -/
def isDirectory (t : FileTree) (here : FilePath) : Bool := t.directories.contains here

/-- Follows the names of a path from a directory. -/
def walk (t : FileTree) (base : FilePath) : List String → Except FileError Place
  | [] => .ok .directory
  | "." :: rest => walk t base rest
  | ".." :: rest => walk t base.dropLast rest
  | name :: rest =>
    let here := base ++ [name]
    if 255 < name.utf8ByteSize then .error .nameTooLong
    else if t.isDirectory here then walk t here rest
    else
      match t.file? here, rest with
      | some content, [] => .ok (.file here content)
      | some _, _ :: _ => .error .notDirectory
      | none, [] => .ok (.vacant here)
      | none, _ :: _ => .error .notFound

/-- Whether a path is written as that of a directory. -/
def isSlashed (path : String) : Bool := path.endsWith "/"

/-- The names in a path. -/
def names (path : String) : List String := (path.splitOn "/").filter (!·.isEmpty)

/-- What a path leads to by way of its names. -/
def resolve (t : FileTree) (path : String) (names : List String) : Except FileError Place :=
  if path.isEmpty then .error .notFound
  else if path.toList.contains '\x00' then .error .nulInName
  else if 4096 ≤ path.utf8ByteSize then .error .nameTooLong
  else t.walk (if path.startsWith "/" then [] else t.workingDirectory) names

/-- The content of a file. -/
def readBytes (t : FileTree) (path : String) : Except FileError ByteArray := do
  match ← t.resolve path (names path) with
  | .file _ content => if isSlashed path then .error .notDirectory else .ok content
  | .directory => .error .isDirectory
  | .vacant _ => .error .notFound

/-- The text of a file. -/
def readText (t : FileTree) (path : String) : Except FileError String := do
  let content ← t.readBytes path
  match String.fromUTF8? content with
  | some text => .ok text
  | none => .error .notUtf8

/-- Puts a file in place, or replaces its content. -/
def put (t : FileTree) (here : FilePath) (content : ByteArray) : FileTree :=
  { t with files := (here, content) :: t.files.filter fun f => f.1 != here }

/-- Writes a file. A path that is written as that of a directory is taken for one, so that its last
name is not looked up. -/
def writeBytes (t : FileTree) (path : String) (content : ByteArray) :
    Except FileError FileTree := do
  let names := if isSlashed path then (names path).dropLast ++ ["."] else names path
  match ← t.resolve path names with
  | .file here _ => .ok (t.put here content)
  | .directory => .error .isDirectory
  | .vacant here => .ok (t.put here content)

/-- A tree with an empty working directory in an empty directory. -/
def empty : FileTree := ⟨[[], ["up"], ["up", "work"]], [], ["up", "work"]⟩

end FileTree

/-- Runs a task on files in memory. -/
def FileTask.run {α : Type} : FileTask α → FileTree → α × FileTree
  | .done a, t => (a, t)
  | .read path next, t => (next (t.readText path)).run t
  | .write path content next, t =>
    match t.writeBytes path content.toUTF8 with
    | .ok t => (next (.ok ())).run t
    | .error e => (next (.error e)).run t

end Irrigation
