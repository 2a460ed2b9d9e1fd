import Irrigation.Output

/-!
# Chips

A chip hands out its lines one consumer at a time. `Board` is the class of things that do so;
the controller of the devices is written for any of them. `Chip` is a simulated chip that
enforces the rules of a real one: a line is held by one consumer, lines beyond the last do not
exist, and nothing is handed out after a close. `Rig` is a chip together with the faults it may
show and the journal of everything done with it.
-/

namespace Irrigation

/-- Why a line cannot be had. -/
inductive LineError
  /-- The line is claimed already. -/
  | busy (offset : Offset)
  /-- The chip has no such line. -/
  | outOfRange (offset : Offset)
  /-- The chip was closed. -/
  | chipClosed
  /-- The valve and the pump cannot share a line. -/
  | shared (offset : Offset)
  deriving DecidableEq, Repr

/-- The text of a line error. -/
def LineError.message : LineError → String
  | .busy offset => s!"line {offset} is already requested"
  | .outOfRange offset => s!"line {offset} does not exist on this chip"
  | .chipClosed => "chip is closed"
  | .shared offset => s!"line {offset} cannot drive both the valve and the pump"

/-- Things that hand out lines. -/
class Board (σ : Type) extends Lines σ where
  /-- Claims a line for a consumer. -/
  request : σ → String → Offset → Direction → Polarity → Except LineError Output × σ
  /-- Gives back the request that holds exactly these lines; `false` if there is none. -/
  release : σ → List Offset → Bool × σ

/-! ## The simulated chip -/

/-- The longest leading part of `text` that takes at most `room` bytes, cut between characters. -/
def fitBytes : Nat → List Char → List Char
  | _, [] => []
  | room, c :: rest => if c.utf8Size ≤ room then c :: fitBytes (room - c.utf8Size) rest else []

/-- The label that a chip stores for a consumer. -/
def consumerLabel (consumer : String) : String :=
  String.ofList (fitBytes Wiring.labelCapacity consumer.toList)

/-- A chip without hardware: who holds which line, and which lines are high. -/
structure Chip where
  path : String
  lines : Nat
  isOpen : Bool := true
  claims : List (Offset × String) := []
  high : List Offset := []
  deriving DecidableEq, Repr

namespace Chip

/-- Who holds a line. -/
def consumer? (c : Chip) (offset : Offset) : Option String := c.claims.lookup offset

/-- Whether a line is held. -/
def isClaimed (c : Chip) (offset : Offset) : Bool := (c.consumer? offset).isSome

/-- Whether the chip has such a line. -/
def hasLine (c : Chip) (offset : Offset) : Bool := offset.toNat < c.lines

/-- The electrical level of a line that exists. -/
def level? (c : Chip) (offset : Offset) : Option Bool :=
  if c.hasLine offset then some (c.high.contains offset) else none

/-- Sets the level of a line. -/
def setLevel (c : Chip) (offset : Offset) (up : Bool) : Chip :=
  let others := c.high.filter (· != offset)
  { c with high := if up then offset :: others else others }

/-- Enters a claim. -/
def claim (c : Chip) (offset : Offset) (consumer : String) : Chip :=
  { c with claims := (offset, consumerLabel consumer) :: c.claims }

/-- Strikes out the claims on some lines. -/
def unclaim (c : Chip) (offsets : List Offset) : Chip :=
  { c with claims := c.claims.filter fun held => !offsets.contains held.1 }

/-- Whether these are lines that can be released: there is one, and all are held. -/
def canRelease (c : Chip) (offsets : List Offset) : Bool :=
  !offsets.isEmpty && offsets.all c.isClaimed

/-- Why a line cannot be claimed now, if it cannot. -/
def refusal? (c : Chip) (offset : Offset) : Option LineError :=
  if !c.isOpen then some .chipClosed
  else if !c.hasLine offset then some (.outOfRange offset)
  else if c.isClaimed offset then some (.busy offset)
  else none

/-- Drops every claim and hands out no more. -/
def close (c : Chip) : Chip := { c with isOpen := false, claims := [] }

/-- The lines that are held or high, by ascending offset. -/
def notable (c : Chip) : List Offset :=
  let offsets := (c.claims.map Prod.fst ++ c.high).eraseDups
  offsets.mergeSort (· ≤ ·)

/-- One line of the chip's table: `offset:held or free:level:consumer`. -/
def entry (c : Chip) (offset : Offset) : String :=
  let held := if c.isClaimed offset then "held" else "free"
  let level := if c.high.contains offset then "high" else "low"
  let consumer := (c.consumer? offset).getD ""
  s!"{offset}:{held}:{level}:{consumer}"

/-- The chip's table of the lines that are held or high. -/
def table (c : Chip) : List String := c.notable.map c.entry

/-! ### What the operations change -/

section Changes

variable (c : Chip) (offset n : Offset)

@[simp] theorem isOpen_setLevel (up : Bool) : (c.setLevel offset up).isOpen = c.isOpen := rfl

@[simp] theorem hasLine_setLevel (up : Bool) : (c.setLevel offset up).hasLine n = c.hasLine n := rfl

@[simp] theorem isClaimed_setLevel (up : Bool) :
    (c.setLevel offset up).isClaimed n = c.isClaimed n := rfl

@[simp] theorem isOpen_claim (who : String) : (c.claim offset who).isOpen = c.isOpen := rfl

@[simp] theorem hasLine_claim (who : String) : (c.claim offset who).hasLine n = c.hasLine n := rfl

@[simp] theorem level?_claim (who : String) : (c.claim offset who).level? n = c.level? n := rfl

@[simp] theorem isOpen_unclaim (offsets : List Offset) : (c.unclaim offsets).isOpen = c.isOpen := rfl

@[simp] theorem hasLine_unclaim (offsets : List Offset) :
    (c.unclaim offsets).hasLine n = c.hasLine n := rfl

@[simp] theorem level?_unclaim (offsets : List Offset) :
    (c.unclaim offsets).level? n = c.level? n := rfl

/-- A write reaches its own line only. -/
theorem level?_setLevel (up : Bool) (h : c.hasLine offset) :
    (c.setLevel offset up).level? n = if n = offset then some up else c.level? n := by
  unfold level?
  rw [hasLine_setLevel]
  by_cases hn : n = offset
  · subst hn
    cases up <;> simp [h, setLevel]
  · cases up <;> simp [hn, setLevel]

theorem isClaimed_eq_any : c.isClaimed n = c.claims.any fun held => n == held.1 := by
  unfold isClaimed consumer?
  induction c.claims with
  | nil => rfl
  | cons held rest ih =>
    obtain ⟨m, who⟩ := held
    rw [List.lookup_cons, List.any_cons, ← ih]
    cases n == m <;> rfl

@[simp] theorem isClaimed_claim (who : String) :
    (c.claim offset who).isClaimed n = (n == offset || c.isClaimed n) := by
  simp only [isClaimed_eq_any, claim, List.any_cons]

@[simp] theorem isClaimed_unclaim (offsets : List Offset) :
    (c.unclaim offsets).isClaimed n = (!offsets.contains n && c.isClaimed n) := by
  rw [isClaimed_eq_any, isClaimed_eq_any, unclaim, List.any_filter]
  induction c.claims with
  | nil => simp
  | cons held rest ih =>
    rw [List.any_cons, List.any_cons, ih]
    by_cases hn : n = held.1
    · subst hn
      cases offsets.contains held.1 <;> simp
    · rw [beq_false_of_ne hn, Bool.and_false, Bool.false_or, Bool.false_or]

theorem refusal?_eq_none :
    c.refusal? offset = none ↔ c.isOpen ∧ c.hasLine offset ∧ c.isClaimed offset = false := by
  unfold refusal?
  cases c.isOpen <;> cases c.hasLine offset <;> cases c.isClaimed offset <;> simp

@[simp] theorem hasLine_close : c.close.hasLine n = c.hasLine n := rfl

@[simp] theorem level?_close : c.close.level? n = c.level? n := rfl

theorem canRelease_singleton : c.canRelease [offset] = c.isClaimed offset := by
  simp [canRelease]

end Changes

end Chip

/-! ## A chip in use -/

/-- Who acts: the caller of the controller's operations, or the worker of a watering job. -/
inductive Actor
  | caller
  | worker
  deriving DecidableEq, Repr

/-- Faults that a board may show. -/
structure Faults where
  /-- Releases are refused and do nothing. -/
  refusesRelease : Bool := false
  /-- A worker that switches this line on dies of it. -/
  deadlyLine : Option Offset := none
  deriving DecidableEq, Repr

/-- A chip, its faults, and the journal of all that is done with it and by whom. -/
structure Rig where
  chip : Chip
  faults : Faults := {}
  actor : Actor := .caller
  journal : List (Actor × Effect) := []
  deriving DecidableEq, Repr

namespace Rig

instance : Journaling Rig := ⟨fun r e => { r with journal := r.journal ++ [(r.actor, e)] }⟩

instance : Lines Rig where
  write r offset up := (true, { r with chip := r.chip.setLevel offset up })

/-- Claims a line; the new output starts at its inactive level. -/
def request (r : Rig) (consumer : String) (offset : Offset) (direction : Direction)
    (polarity : Polarity) : Except LineError Output × Rig :=
  match r.chip.refusal? offset with
  | some e => (.error e, r)
  | none =>
    let r := { r with chip := r.chip.claim offset consumer }
    let r := log .debug s!"Chip(sim): line {offset} requested by '{consumer}'" r
    let (o, r) := Output.claim offset direction polarity r
    (.ok o, r)

/-- The numbers of released lines, as a log record lists them. -/
def listing (offsets : List Offset) : String :=
  "[" ++ ", ".intercalate (offsets.map fun o => s!"{o}") ++ "]"

/-- Releases lines, all of them or none. -/
def release (r : Rig) (offsets : List Offset) : Bool × Rig :=
  if r.faults.refusesRelease || !r.chip.canRelease offsets then (false, r)
  else
    let r := { r with chip := r.chip.unclaim offsets }
    (true, log .debug s!"Chip(sim): released {listing offsets}" r)

instance : Board Rig := { request, release }

/-- Opens a chip. -/
def openChip (path : String) (lines : Nat) : Rig :=
  log .info s!"Chip(sim): opened {path} with {lines} lines" { chip := { path, lines } }

/-- Closes the chip. -/
def close (r : Rig) : Rig :=
  log .info s!"Chip(sim): {r.chip.path} closed" { r with chip := r.chip.close }

end Rig

end Irrigation
