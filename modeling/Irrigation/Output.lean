import Irrigation.Journal

/-!
# Outputs

An output drives one line to its active or inactive level and remembers which of the two the
line had last. Writing a line can fail; a failed write is logged and changes nothing, so the
remembered state stays true of the line. Main definitions: `Output`, the class `Lines` of things
whose lines can be written, `Output.drive` and `Output.claim`.
-/

namespace Irrigation

/-- A claimed line, with what it was driven to last. -/
structure Output where
  offset : Offset
  direction : Direction
  polarity : Polarity
  active : Bool := false
  deriving DecidableEq, Repr

/-- Things whose lines can be driven high (`true`) or low. A write says whether it succeeded. -/
class Lines (σ : Type) extends Journaling σ where
  /-- Drives a line. -/
  write : σ → Offset → Bool → Bool × σ

namespace Output

/-- The word for a state of a line in a log record. -/
def stateWord (active : Bool) : String := if active then "active" else "inactive"

/-- Description of the line for the operator. -/
def statusLine (o : Output) : String :=
  let state := if o.active then "ACTIVE" else "inactive"
  s!"line {o.offset} | {o.direction.name} | {o.polarity.label} | {state}"

variable {σ : Type} [Lines σ]

/-- Drives the line to the level that stands for `on`. A line that is no output is left alone. -/
def drive (o : Output) (on : Bool) (s : σ) : Output × σ :=
  match o.direction with
  | .input => (o, log .warn s!"Output: line {o.offset} is not an output, ignoring write" s)
  | .output =>
    match Lines.write s o.offset (o.polarity.level on) with
    | (true, s) => ({ o with active := on }, s)
    | (false, s) =>
      let state := stateWord o.active
      (o, log .warn s!"Output: line {o.offset} write failed (Other), state stays {state}" s)

/-- Takes over a line: it starts at its inactive level. -/
def claim (offset : Offset) (direction : Direction) (polarity : Polarity) (s : σ) : Output × σ :=
  drive { offset, direction, polarity } false s

/-- Switches the output on or off; the call is journaled before it takes effect. -/
def switch (o : Output) (on : Bool) (s : σ) : Output × σ :=
  o.drive on (record s (.driven o.offset on))

end Output

/-! ## A line on its own -/

/-- A single line that remembers the last level written and can be made to refuse writes. -/
structure TestLine where
  level : Option Bool := none
  failing : Bool := false
  journal : List Effect := []
  deriving DecidableEq, Repr

instance : Journaling TestLine := ⟨fun t e => { t with journal := t.journal ++ [e] }⟩

instance : Lines TestLine where
  write t _ high := if t.failing then (false, t) else (true, { t with level := some high })

end Irrigation
