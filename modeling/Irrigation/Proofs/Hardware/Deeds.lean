import Irrigation.Proofs.Hardware.Handling

/-!
# What is done to a rig

Most of a journal is talk: log records and notices. The rest are *deeds*: calls on outputs, reads
of durations, waits that ended, and events of the job (`Effect.isDeed`, `Rig.deeds`). Whatever
outputs and controllers do to a rig is *routine*: the only deeds are calls on outputs by the one
who acts, and neither the actor nor the faults change (`Rig.Routine`).
-/

namespace Irrigation

/-- Whether a journal entry says that something was done. -/
def Effect.isDeed : Effect → Bool
  | .log .. => false
  | .emitted (.notice ..) => false
  | .printed _ => false
  | .complained _ => false
  | _ => true

namespace Rig

/-- The deeds in the journal, each with who did it. -/
def deeds (r : Rig) : List (Actor × Effect) := r.journal.filter fun e => e.2.isDeed

theorem deeds_record (r : Rig) (e : Effect) :
    (record r e).deeds = r.deeds ++ if e.isDeed then [(r.actor, e)] else [] := by
  simp only [deeds, record, List.filter_append]
  cases h : e.isDeed <;> simp [h]

@[simp] theorem log_actor (l : Level) (text : String) (r : Rig) :
    (log l text r).actor = r.actor := rfl

@[simp] theorem log_deeds (l : Level) (text : String) (r : Rig) :
    (log l text r).deeds = r.deeds := by
  simp [log, deeds_record, Effect.isDeed]

@[simp] theorem report_deeds (who : String) (l : Level) (message : String) (r : Rig) :
    (Irrigation.report who l message r).deeds = r.deeds := by
  simp [Irrigation.report, notify, deeds_record, Effect.isDeed]

/-! ## Routine -/

/-- From `r` to `r'` only outputs were called, by the one who acts on `r`. -/
structure Routine (r r' : Rig) : Prop where
  actor : r'.actor = r.actor
  faults : r'.faults = r.faults
  deeds : ∃ calls : List (Offset × Bool),
    r'.deeds = r.deeds ++ calls.map fun call => (r.actor, .driven call.1 call.2)

namespace Routine

variable {r r₁ r₂ : Rig}

/-- Nothing is done at all. -/
theorem of_deeds_eq (ha : r₁.actor = r.actor) (hf : r₁.faults = r.faults)
    (hd : r₁.deeds = r.deeds) : Routine r r₁ :=
  ⟨ha, hf, [], by simp [hd]⟩

theorem refl (r : Rig) : Routine r r := of_deeds_eq rfl rfl rfl

theorem trans (h₁ : Routine r r₁) (h₂ : Routine r₁ r₂) : Routine r r₂ := by
  obtain ⟨calls₁, hd₁⟩ := h₁.deeds
  obtain ⟨calls₂, hd₂⟩ := h₂.deeds
  refine ⟨h₂.actor.trans h₁.actor, h₂.faults.trans h₁.faults, calls₁ ++ calls₂, ?_⟩
  rw [hd₂, hd₁, h₁.actor, List.map_append, List.append_assoc]

theorem log (l : Level) (text : String) (r : Rig) : Routine r (log l text r) :=
  of_deeds_eq rfl rfl (log_deeds ..)

theorem report (who : String) (l : Level) (message : String) (r : Rig) :
    Routine r (Irrigation.report who l message r) :=
  of_deeds_eq rfl rfl (report_deeds ..)

end Routine

/-- Among what outputs and controllers write, the deeds are calls. -/
theorem filter_isDeed {actor : Actor} {new : List (Actor × Effect)}
    (h : ∀ x ∈ new, x.1 = actor ∧ x.2.IsRoutine) : ∃ calls : List (Offset × Bool),
    (new.filter fun x => x.2.isDeed) = calls.map fun call => (actor, .driven call.1 call.2) := by
  induction new with
  | nil => exact ⟨[], rfl⟩
  | cons x rest ih =>
    obtain ⟨a, e⟩ := x
    rw [List.forall_mem_cons] at h
    obtain ⟨⟨rfl, he⟩, hrest⟩ := h
    obtain ⟨calls, hcalls⟩ := ih hrest
    rw [List.filter_cons, hcalls]
    cases e with
    | driven offset on => exact ⟨(offset, on) :: calls, rfl⟩
    | log level text => exact ⟨calls, rfl⟩
    | emitted event =>
      cases event with
      | notice => exact ⟨calls, rfl⟩
      | _ => exact he.elim
    | _ => exact he.elim

/-- **What outputs and controllers do is routine.** -/
theorem Handled.routine {r r' : Rig} (h : Handled r r') : Routine r r' := by
  obtain ⟨new, hnew, hall⟩ := h.adds
  obtain ⟨calls, hcalls⟩ := filter_isDeed hall
  refine ⟨h.actor, h.faults, calls, ?_⟩
  rw [deeds, hnew, List.filter_append, hcalls]
  rfl

/-! ## Outputs -/

/-- Driving an output is no deed of its own. -/
theorem routine_drive (o : Output) (on : Bool) (r : Rig) : Routine r (o.drive on r).2 :=
  (handled_drive o on r).routine

theorem deeds_drive (o : Output) (on : Bool) (r : Rig) : (o.drive on r).2.deeds = r.deeds := by
  unfold Output.drive
  split
  · exact log_deeds ..
  · rfl

/-- Switching an output is one deed. -/
theorem deeds_switch (o : Output) (on : Bool) (r : Rig) :
    (o.switch on r).2.deeds = r.deeds ++ [(r.actor, .driven o.offset on)] := by
  rw [Output.switch, deeds_drive, deeds_record]
  rfl

/-! ## Lines -/

theorem routine_request (r : Rig) (who : String) (offset : Offset) (d : Direction)
    (p : Polarity) : Routine r (r.request who offset d p).2 :=
  (handled_request r who offset d p).routine

theorem deeds_release (r : Rig) (offsets : List Offset) :
    (r.release offsets).2.deeds = r.deeds := by
  unfold Rig.release
  split
  · rfl
  · exact log_deeds ..

theorem routine_release (r : Rig) (offsets : List Offset) :
    Routine r (r.release offsets).2 :=
  (handled_release r offsets).routine

/-! ## Controllers -/

/-- Letting go of a bound role is one deed. -/
theorem deeds_unbind {c : Controller} {role : Role} {o : Output}
    (ho : (c.slot role).output = some o) (r : Rig) :
    (c.unbind role r).2.deeds = r.deeds ++ [(r.actor, .driven o.offset false)] := by
  unfold Controller.unbind
  simp only [ho]
  have h := deeds_release (o.switch false r).2 [(c.slot role).offset]
  change (Board.release (o.switch false r).2 [(c.slot role).offset]).2.deeds = _ at h
  rcases hr : Board.release (o.switch false r).2 [(c.slot role).offset] with ⟨_ | _, r'⟩
  · simp only [Controller.report, report_deeds]
    rw [hr, deeds_switch] at h
    exact h
  · rw [hr, deeds_switch] at h
    exact h

theorem unbind_of_none {c : Controller} {role : Role} (h : (c.slot role).output = none)
    (r : Rig) : c.unbind role r = (c, r) := by
  unfold Controller.unbind
  rw [h]

theorem routine_unbind (c : Controller) (role : Role) (r : Rig) :
    Routine r (c.unbind role r).2 :=
  (handled_unbind c role r).routine

theorem routine_unbindAll (roles : List Role) (c : Controller) (r : Rig) :
    Routine r (c.unbindAll roles r).2 :=
  (handled_unbindAll roles c r).routine

theorem routine_controllerSwitch (c : Controller) (role : Role) (on : Bool) (r : Rig) :
    Routine r (c.switch role on r).2.2 :=
  (handled_controllerSwitch c role on r).routine

theorem routine_wire (pins : Each Pin) (r : Rig) : Routine r (Controller.wire pins r).2 :=
  (handled_wire pins r).routine

theorem routine_rebind (c : Controller) (wanted : Each (Option Offset)) (r : Rig) :
    Routine r (c.rebind wanted r).2.2 :=
  (handled_rebind c wanted r).routine

end Rig

end Irrigation
