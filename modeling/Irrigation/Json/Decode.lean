import Irrigation.Json.Tree

/-!
# Typed readers

A typed reader goes through a tree from left to right and gives a record or the first error.
Records are described by their `Field`s: `record` reads one from an object, in any order of the
members, or from an array, in the order of the fields. Members with other names are skipped; a
name given twice is an error. A record either has defaults for all fields or for none.
-/

namespace Irrigation.Json

/-- Why a text gives no record. -/
inductive Error
  /-- The text is JSON as far as it was read, but not of the right shape. -/
  | data (what : String) (spot : Option Spot)
  /-- The text is not JSON. -/
  | faulty (fault : Fault)
  deriving DecidableEq, Repr

namespace Error

/-- The text of an error. -/
def message : Error → String
  | .data what none => what
  | .data what (some spot) => s!"{what} at line {spot.line} column {spot.column}"
  | .faulty .incomplete => "EOF while parsing a value"
  | .faulty .malformed => "expected value"

/-- The error without its place. -/
def unplaced : Error → Error
  | .data what _ => .data what none
  | .faulty f => .faulty f

end Error

/-- Where a tree comes from. Some errors are told apart by it. -/
inductive Origin
  | text
  | value
  deriving DecidableEq, Repr

/-- Readers of `α`. -/
abbrev Reader (α : Type) := Origin → Tree → Except Error α

namespace Reader

/-- The error for a tree of the wrong type. -/
def mismatch (expected : String) (t : Tree) : Error :=
  match t.found with
  | .ok found => .data s!"invalid type: {found.what}, expected {expected}" (some found.spot)
  | .error f => .faulty f

/-- The error for a number out of range. -/
def outOfRange (expected : String) (t : Tree) : Error :=
  match t.found with
  | .ok found => .data s!"invalid value: {found.what}, expected {expected}" (some found.spot)
  | .error f => .faulty f

/-- Reads a text. -/
def text : Reader String := fun _ t =>
  match t with
  | .text (.ok s) _ => .ok s
  | t => .error (mismatch "a string" t)

/-- Reads a truth value. -/
def bool : Reader Bool := fun _ t =>
  match t with
  | .bool b _ => .ok b
  | t => .error (mismatch "a boolean" t)

/-- Reads a whole number below a bound, called `name` in errors. -/
def natural (name : String) (bound : Nat) : Reader Nat := fun _ t =>
  match t with
  | .number (.ok (.whole i)) _ =>
    if 0 ≤ i ∧ i < bound then .ok i.toNat else .error (outOfRange name t)
  | t => .error (mismatch name t)

/-- Reads an unsigned integer of 32 bits. -/
def uint32 : Reader UInt32 := fun o t => (natural "u32" UInt32.size o t).map UInt32.ofNat

/-- Reads an unsigned integer of 64 bits. -/
def uint64 : Reader UInt64 := fun o t => (natural "u64" UInt64.size o t).map UInt64.ofNat

/-! ## Choices -/

/-- Reads nothing: the word `null`. -/
def nothing : Reader Unit := fun _ t =>
  match t with
  | .null _ => .ok ()
  | t => .error (mismatch "unit" t)

/-- The value that a name stands for. -/
def named {α : Type} (choices : List (String × α)) (name : String) (spot : Spot) :
    Except Error α :=
  match choices.lookup name with
  | some a => .ok a
  | none =>
    let expected := " or ".intercalate (choices.map fun c => "`" ++ c.1 ++ "`")
    .error (.data s!"unknown variant `{name}`, expected {expected}" (some spot))

/-- Reads one of two named values, written as its name or as an object whose only member has that
name and the value `null`. -/
def choice {α : Type} (choices : List (String × α)) : Reader α := fun origin t =>
  match t with
  | .text (.ok name) stop => named choices name stop
  | .text (.error f) _ => .error (.faulty f)
  | .object members _ closing =>
    match origin, members, closing with
    | .value, [(key, content)], _ => do
      let name ← key.name.mapError .faulty
      let a ← named choices name key.stop
      nothing origin content
      .ok a
    | .value, _, _ =>
      .error (.data "invalid value: map, expected map with a single key" none)
    | .text, [], .broken f => .error (.faulty f)
    | .text, [], _ => .error (.faulty .malformed)
    | .text, (key, content) :: more, closing => do
      let name ← key.name.mapError .faulty
      let a ← named choices name key.stop
      nothing origin content
      match more, closing with
      | [], .closed _ => .ok a
      | [], .broken f => .error (.faulty f)
      | _, _ => .error (.faulty .malformed)
  | .missing f => .error (.faulty f)
  | t =>
    match origin with
    | .text => .error (.faulty .malformed)
    | .value => .error (mismatch "string or map" t)

/-! ## Sequences -/

/-- Reads each item. -/
def items {α : Type} (item : Reader α) (origin : Origin) : List Tree → Except Error (List α)
  | [] => .ok []
  | t :: rest => do
    let a ← item origin t
    let more ← items item origin rest
    .ok (a :: more)

/-- Reads an array. -/
def list {α : Type} (item : Reader α) : Reader (List α) := fun origin t =>
  match t with
  | .array ts _ closing => do
    let as ← items item origin ts
    match closing.fault? with
    | some f => .error (.faulty f)
    | none => .ok as
  | t => .error (mismatch "a sequence" t)

end Reader

/-! ## Records -/

/-- A field of a record: its name, and how to read it into the record. -/
structure Field (α : Type) where
  name : String
  read : Origin → Tree → α → Except Error α

/-- A field that is read as `β` and put into the record. -/
def Field.of {α β : Type} (name : String) (reader : Reader β) (put : β → α → α) : Field α :=
  ⟨name, fun origin t a => (reader origin t).map fun b => put b a⟩

/-- The description of a record. -/
structure Schema (α : Type) where
  /-- The name in error messages. -/
  name : String
  fields : List (Field α)
  /-- The record that reading starts from. -/
  start : α
  /-- Whether a field may be left out, so that it keeps what the start has. -/
  defaults : Bool

namespace Schema

variable {α : Type}

/-- Reads the members of an object into a record. `seen` are the names met before. -/
def readMembers (s : Schema α) (origin : Origin) :
    List (Key × Tree) → α → List String → Except Error (α × List String)
  | [], a, seen => .ok (a, seen)
  | (key, t) :: rest, a, seen => do
    let name ← key.name.mapError .faulty
    match s.fields.find? fun f => f.name == name with
    | none => readMembers s origin rest a seen
    | some f =>
      if seen.contains name then .error (.data s!"duplicate field `{name}`" (some key.next))
      else
        let a ← f.read origin t a
        readMembers s origin rest a (name :: seen)

/-- Reads the items of an array into a record, field by field; `pastEnd` decides when there are
fewer items than fields. -/
def readItems (origin : Origin) (pastEnd : Except Error Unit) :
    List (Field α) → List Tree → α → Except Error (α × List Tree)
  | [], ts, a => .ok (a, ts)
  | _ :: _, [], a => pastEnd.map fun _ => (a, [])
  | f :: fields, t :: ts, a => do
    let a ← f.read origin t a
    readItems origin pastEnd fields ts a

/-- The error for an array with too few items. -/
def tooShort (s : Schema α) (count : Nat) (spot : Spot) : Error :=
  let size := s.fields.length
  .data s!"invalid length {count}, expected struct {s.name} with {size} elements" (some spot)

/-- Reads a record. -/
def record (s : Schema α) : Reader α := fun origin t =>
  match t with
  | .object members _ closing => do
    let (a, seen) ← s.readMembers origin members s.start []
    match closing with
    | .closed stop =>
      match s.fields.find? fun f => !seen.contains f.name with
      | some f =>
        if s.defaults then .ok a
        else .error (.data s!"missing field `{f.name}`" (some stop))
      | none => .ok a
    | closing => .error (.faulty (closing.fault?.getD .malformed))
  | .array ts _ closing => do
    let pastEnd : Except Error Unit :=
      match closing with
      | .closed stop => if s.defaults then .ok () else .error (s.tooShort ts.length stop)
      | closing => .error (.faulty (closing.fault?.getD .malformed))
    let (a, more) ← readItems origin pastEnd s.fields ts s.start
    match more, closing, origin with
    | [], .closed _, _ => .ok a
    | [], .broken f, _ => .error (.faulty f)
    | _ :: _, _, .value =>
      .error (.data s!"invalid length {ts.length}, expected fewer elements in array" none)
    | _, _, _ => .error (.faulty .malformed)
  | t => .error (Reader.mismatch s!"struct {s.name}" t)

end Schema

/-! ## Reading from texts and values -/

/-- Reads a text as `α`. -/
def Reader.ofText {α : Type} (reader : Reader α) (text : String) : Except Error α := do
  let d := Document.read text
  let a ← reader .text d.root
  match d.tail with
  | some f => .error (.faulty f)
  | none => .ok a

/-- Reads a value as `α`. Errors have no place. -/
def Reader.ofValue {α : Type} (reader : Reader α) (v : Value) : Except Error α :=
  (reader .value v.tree).mapError Error.unplaced

end Irrigation.Json
