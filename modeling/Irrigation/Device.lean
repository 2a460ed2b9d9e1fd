/-!
# The two devices

Irrigation drives a valve and a pump. `Role` names them, and `Each α` holds one `α` for each of
the two, addressed by role. Whatever is done to both is done to the valve first: `Role.all` is
that order.
-/

namespace Irrigation

/-- The devices that a watering cycle drives. -/
inductive Role
  | valve
  | pump
  deriving DecidableEq, Repr

namespace Role

/-- Both devices, in the order in which they are switched. -/
def all : List Role := [.valve, .pump]

/-- The name that the operator reads. -/
def label : Role → String
  | .valve => "water valve"
  | .pump => "water pump"

/-- The name that project files use. -/
def projectName : Role → String
  | .valve => "waterValve"
  | .pump => "waterPump"

@[simp] theorem mem_all (r : Role) : r ∈ all := by cases r <;> simp [all]

end Role

/-- One value for the valve and one for the pump. -/
structure Each (α : Type) where
  valve : α
  pump : α
  deriving DecidableEq, Repr

namespace Each

variable {α β : Type}

/-- The value of one role. -/
def get (e : Each α) : Role → α
  | .valve => e.valve
  | .pump => e.pump

/-- Replaces the value of one role. -/
def set (e : Each α) (r : Role) (a : α) : Each α :=
  match r with
  | .valve => { e with valve := a }
  | .pump => { e with pump := a }

/-- Applies a function to both values. -/
def map (f : α → β) (e : Each α) : Each β := ⟨f e.valve, f e.pump⟩

/-- The same value for both roles. -/
def both (a : α) : Each α := ⟨a, a⟩

@[simp] theorem get_set (e : Each α) (r : Role) (a : α) (r' : Role) :
    (e.set r a).get r' = if r' = r then a else e.get r' := by
  cases r <;> cases r' <;> simp [get, set]

@[simp] theorem get_map (f : α → β) (e : Each α) (r : Role) : (e.map f).get r = f (e.get r) := by
  cases r <;> rfl

@[simp] theorem get_both (a : α) (r : Role) : (both a).get r = a := by cases r <;> rfl

theorem ext_get {e e' : Each α} (h : ∀ r, e.get r = e'.get r) : e = e' := by
  have hv := h .valve
  have hp := h .pump
  cases e
  cases e'
  simp_all [get]

/-- Whether one of two flags is up. -/
def any (flags : Each Bool) : Bool := flags.valve || flags.pump

/-- Whether both flags are up. -/
def all (flags : Each Bool) : Bool := flags.valve && flags.pump

/-- The flags that are up in both. -/
def meet (a b : Each Bool) : Each Bool := ⟨a.valve && b.valve, a.pump && b.pump⟩

@[simp] theorem get_meet (a b : Each Bool) (r : Role) :
    (a.meet b).get r = (a.get r && b.get r) := by
  cases r <;> rfl

end Each

end Irrigation
