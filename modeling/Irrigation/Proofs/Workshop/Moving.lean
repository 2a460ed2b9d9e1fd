import Irrigation.Proofs.Workshop.Ownership

/-!
# Moves in a workshop

What `Controller.rebind` does is decided by what the chip looks like before the call: which lines
exist, and which are in somebody else's hands. `moves_decided` says when a move succeeds and what
it leaves then, and `nothing_lost` what is left of a move that fails, for any controller that is
alive after any sequence of errands.
-/

namespace Irrigation

namespace Workshop

variable {w : Workshop} {i : Nat} {t : Tenant}

/-- A controller on an open chip moves exactly if it can, and does nothing else. -/
structure Decided (c : Controller) (r : Rig) (wanted : Each (Option Offset)) : Prop where
  /-- Targets that coincide are refused, and nothing changes. -/
  shared : ∀ offset, (c.rebind wanted r).1 = .error (.shared offset) ↔
    (c.targets wanted).valve = offset ∧ (c.targets wanted).pump = offset
  unchanged : (c.targets wanted).valve = (c.targets wanted).pump → (c.rebind wanted r).2 = (c, r)
  /-- Otherwise the move succeeds exactly if the target of each role that moves exists and is not
  claimed by anybody else. -/
  succeeds : (c.targets wanted).valve ≠ (c.targets wanted).pump →
    ((c.rebind wanted r).1 = .ok () ↔ ∀ role, c.Moves (c.targets wanted) role →
      r.chip.hasLine ((c.targets wanted).get role) ∧
        (r.chip.isClaimed ((c.targets wanted).get role) →
          (c.targets wanted).get role ∈ c.lines))
  /-- If it fails, then for what stands against the first role that moves, valve before pump. -/
  fails : (c.targets wanted).valve ≠ (c.targets wanted).pump → ∀ e,
    (c.rebind wanted r).1 = .error e ↔ c.refused? (c.targets wanted) r.chip = some e
  moved : (c.rebind wanted r).1 = .ok () →
    c.Moved (c.targets wanted) r (c.rebind wanted r).2.1 (c.rebind wanted r).2.2 ∧
      ∀ role, ∃ o, ((c.rebind wanted r).2.1.slot role).output = some o ∧
        o.offset = (c.targets wanted).get role

/-- **When a move succeeds, and what it does then**, for any controller alive on an open chip. -/
theorem moves_decided (path : String) (lines : Nat) (errands : List Errand)
    (hi : (after path lines errands).tenants[i]? = some t)
    (hopen : (after path lines errands).rig.chip.isOpen) (wanted : Each (Option Offset)) :
    Decided t.controller (after path lines errands).rig wanted := by
  have h := (tidy_after path lines errands).hosts hi
  generalize after path lines errands = w at *
  have hresult := Controller.rebind_result h hopen wanted
  refine ⟨fun offset => ?_, fun heq => by rw [Controller.rebind_shared heq], fun hne => ?_,
    fun hne e => ?_, fun hok => ⟨Controller.moved_rebind h hopen hok, fun role => ?_⟩⟩
  · rw [hresult]
    split
    · next heq =>
      rw [Except.error.injEq, LineError.shared.injEq, ← heq, and_self]
    · next hne =>
      refine iff_of_false (fun herr => ?_) fun ⟨hv, hp⟩ => hne (hv.trans hp.symm)
      cases href : t.controller.refused? (t.controller.targets wanted) w.rig.chip with
      | none => simp [href] at herr
      | some e =>
        rw [href, Except.error.injEq] at herr
        exact Controller.refused?_ne_shared offset (href.trans (congrArg some herr))
  · rw [hresult, if_neg hne, ← Controller.refused?_eq_none]
    cases t.controller.refused? (t.controller.targets wanted) w.rig.chip <;> simp
  · rw [hresult, if_neg hne]
    cases t.controller.refused? (t.controller.targets wanted) w.rig.chip <;> simp
  · obtain ⟨o, ho, hoffset, -⟩ := Controller.holds_targets h hok role
    exact ⟨o, ho, hoffset⟩

/-! ### A workshop in which the valve is on -/

/-- Somebody takes line 5, then a controller is wired and opens the valve. -/
def busyErrands : List Errand :=
  [.guest (.request "logger" 5 .output .activeHigh),
    .build ⟨⟨17, .activeHigh⟩, ⟨27, .activeLow⟩⟩, .switch 0 .valve true]

/-- The controller with its valve open. -/
def busyTenant : Tenant :=
  ⟨⟨⟨17, .activeHigh⟩, ⟨27, .activeLow⟩⟩,
    ⟨⟨⟨.activeHigh, 17, some ⟨17, .output, .activeHigh, true⟩⟩,
      ⟨.activeLow, 27, some ⟨27, .output, .activeLow, false⟩⟩⟩⟩⟩

/-- The valve and the pump trade lines, or the pump alone moves while the valve is on. -/
theorem trade_or_move_pump :
    (busyTenant.controller.rebind ⟨some 27, some 17⟩
      (after "gpiochip0" 54 busyErrands).rig).1 = .ok () ∧
    Decided busyTenant.controller (after "gpiochip0" 54 busyErrands).rig ⟨some 27, some 17⟩ ∧
    (busyTenant.controller.rebind ⟨none, some 6⟩
      (after "gpiochip0" 54 busyErrands).rig).1 = .ok () ∧
    Decided busyTenant.controller (after "gpiochip0" 54 busyErrands).rig ⟨none, some 6⟩ :=
  ⟨rfl, moves_decided _ _ _ (i := 0) rfl rfl _, rfl, moves_decided _ _ _ (i := 0) rfl rfl _⟩

/-- **A failed move loses nothing**: on an open chip everything is back in its place, and on a
closed one only the outputs of the roles that were to move are gone. -/
theorem nothing_lost (path : String) (lines : Nat) (errands : List Errand)
    (hi : (after path lines errands).tenants[i]? = some t)
    (hbound : ∀ role, (t.controller.slot role).isBound) (wanted : Each (Option Offset))
    {e : LineError}
    (hfails : (t.controller.rebind wanted (after path lines errands).rig).1 = .error e)
    (hshared : ∀ offset, e ≠ .shared offset) :
    ((after path lines errands).rig.chip.isOpen = true →
      t.controller.Restored (t.controller.targets wanted) (after path lines errands).rig
        (t.controller.rebind wanted (after path lines errands).rig).2.1
        (t.controller.rebind wanted (after path lines errands).rig).2.2) ∧
    ((after path lines errands).rig.chip.isOpen = false → e = .chipClosed ∧
      t.controller.Lost (t.controller.targets wanted) (after path lines errands).rig
        (t.controller.rebind wanted (after path lines errands).rig).2.1
        (t.controller.rebind wanted (after path lines errands).rig).2.2) := by
  have htidy := tidy_after path lines errands
  generalize after path lines errands = w at *
  have h := htidy.hosts hi
  have hne : (t.controller.targets wanted).valve ≠ (t.controller.targets wanted).pump := by
    intro heq
    rw [Controller.rebind_shared heq] at hfails
    exact hshared _ (Except.error.inj hfails).symm
  exact ⟨fun hopen => Controller.restored_rebind h (htidy.labels t (List.mem_of_getElem? hi))
    hopen hbound hne hfails, fun hclosed => Controller.lost_rebind h hclosed hne hfails⟩

/-- The pump cannot have line 5, and stays where it is; on a closed chip it is left without one. -/
theorem pump_back_or_gone :
    busyTenant.controller.Restored ⟨17, 5⟩ (after "gpiochip0" 54 busyErrands).rig
      (busyTenant.controller.rebind ⟨none, some 5⟩ (after "gpiochip0" 54 busyErrands).rig).2.1
      (busyTenant.controller.rebind ⟨none, some 5⟩ (after "gpiochip0" 54 busyErrands).rig).2.2 ∧
    busyTenant.controller.Lost ⟨17, 6⟩ (after "gpiochip0" 54 (busyErrands ++ [.closeChip])).rig
      (busyTenant.controller.rebind ⟨none, some 6⟩
        (after "gpiochip0" 54 (busyErrands ++ [.closeChip])).rig).2.1
      (busyTenant.controller.rebind ⟨none, some 6⟩
        (after "gpiochip0" 54 (busyErrands ++ [.closeChip])).rig).2.2 :=
  have hbound : ∀ role, (busyTenant.controller.slot role).isBound := fun role => by
    cases role <;> rfl
  ⟨(nothing_lost _ _ _ (i := 0) (e := .busy 5) rfl hbound ⟨none, some 5⟩ rfl (by simp)).1 rfl,
    ((nothing_lost _ _ _ (i := 0) (e := .chipClosed) rfl hbound ⟨none, some 6⟩ rfl (by simp)).2
      rfl).2⟩

end Workshop

end Irrigation
