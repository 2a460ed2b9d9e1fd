import Irrigation.Controller
import Irrigation.Proofs.Text.Breaks

/-!
# What controllers do to a rig

Whatever outputs and controllers do to a rig, they change its chip and add to its journal
(`Rig.Handled`): log records, calls on outputs, and notices, each of them one line of text, all in
the name of the one who acts. What is added to a journal is said by `Rig.Adds` for entries of any
kind.
-/

namespace Irrigation

open Text (OneLine)

namespace Rig

variable {r r₁ r₂ : Rig} {P Q : Actor × Effect → Prop}

/-- The journal has grown by entries of some kind. -/
def Adds (P : Actor × Effect → Prop) (r r' : Rig) : Prop :=
  ∃ new, r'.journal = r.journal ++ new ∧ ∀ x ∈ new, P x

theorem Adds.refl (r : Rig) : Adds P r r :=
  ⟨[], (List.append_nil _).symm, fun _ h => absurd h List.not_mem_nil⟩

theorem Adds.trans (h : Adds P r r₁) (h' : Adds P r₁ r₂) : Adds P r r₂ := by
  obtain ⟨new, hnew, hP⟩ := h
  obtain ⟨more, hmore, hP'⟩ := h'
  exact ⟨new ++ more, by rw [hmore, hnew, List.append_assoc], List.forall_mem_append.mpr ⟨hP, hP'⟩⟩

theorem Adds.mono (h : Adds P r r₁) (hPQ : ∀ x, P x → Q x) : Adds Q r r₁ := by
  obtain ⟨new, hnew, hP⟩ := h
  exact ⟨new, hnew, fun x hx => hPQ x (hP x hx)⟩

theorem Adds.record {e : Effect} (he : P (r.actor, e)) : Adds P r (Irrigation.record r e) :=
  ⟨[(r.actor, e)], rfl, List.forall_mem_singleton.mpr he⟩

end Rig

/-- What outputs and controllers write into a journal. -/
def Effect.IsRoutine : Effect → Prop
  | .log .. => True
  | .driven .. => True
  | .emitted (.notice _ message) => OneLine message
  | _ => False

@[simp] theorem oneLine_roleLabel (r : Role) : OneLine r.label := by
  cases r <;> decide

@[simp] theorem LineError.oneLine_message (e : LineError) : OneLine e.message := by
  cases e <;> simp +decide [LineError.message]

namespace Rig

/-- From `r` to `r'` outputs and controllers were at work. -/
structure Handled (r r' : Rig) : Prop where
  actor : r'.actor = r.actor
  faults : r'.faults = r.faults
  adds : r.Adds (fun x => x.1 = r.actor ∧ x.2.IsRoutine) r'

namespace Handled

variable {r r₁ r₂ : Rig}

/-- Nothing is written. -/
theorem silent (ha : r₁.actor = r.actor) (hf : r₁.faults = r.faults)
    (hj : r₁.journal = r.journal) : Handled r r₁ :=
  ⟨ha, hf, [], by rw [hj, List.append_nil], fun _ h => absurd h List.not_mem_nil⟩

theorem refl (r : Rig) : Handled r r := silent rfl rfl rfl

theorem trans (h : Handled r r₁) (h' : Handled r₁ r₂) : Handled r r₂ where
  actor := h'.actor.trans h.actor
  faults := h'.faults.trans h.faults
  adds := h.adds.trans (h.actor ▸ h'.adds)

theorem record {e : Effect} (he : e.IsRoutine) (r : Rig) : Handled r (Irrigation.record r e) :=
  ⟨rfl, rfl, .record ⟨rfl, he⟩⟩

theorem log (l : Level) (text : String) (r : Rig) : Handled r (Irrigation.log l text r) :=
  record (e := .log l text) trivial r

theorem report (who : String) (l : Level) {message : String} (h : OneLine message) (r : Rig) :
    Handled r (Irrigation.report who l message r) :=
  (log ..).trans (record (e := .emitted (.notice l message)) h _)

end Handled

/-! ## Outputs -/

theorem handled_drive (o : Output) (on : Bool) (r : Rig) : Handled r (o.drive on r).2 := by
  unfold Output.drive
  split
  · exact .log ..
  · exact .silent rfl rfl rfl

theorem handled_switch (o : Output) (on : Bool) (r : Rig) : Handled r (o.switch on r).2 :=
  (Handled.record (e := .driven o.offset on) trivial r).trans (handled_drive ..)

/-! ## Lines -/

theorem handled_request (r : Rig) (who : String) (offset : Offset) (d : Direction)
    (p : Polarity) : Handled r (r.request who offset d p).2 := by
  unfold Rig.request
  split
  · exact .refl r
  · let claimed : Rig := { r with chip := r.chip.claim offset who }
    have h : Handled r claimed := .silent rfl rfl rfl
    exact (h.trans (.log ..)).trans (handled_drive ⟨offset, d, p, false⟩ false _)

theorem handled_release (r : Rig) (offsets : List Offset) : Handled r (r.release offsets).2 := by
  unfold Rig.release
  split
  · exact .refl r
  · let freed : Rig := { r with chip := r.chip.unclaim offsets }
    have h : Handled r freed := .silent rfl rfl rfl
    exact h.trans (.log ..)

theorem handled_requestPin (pin : Pin) (r : Rig) : Handled r (Controller.requestPin pin r).2 :=
  handled_request r Wiring.consumer pin.offset .output pin.polarity

theorem handled_boardRelease (r : Rig) (offsets : List Offset) :
    Handled r (Board.release r offsets).2 := handled_release ..

/-! ## Controllers -/

theorem handled_unbind (c : Controller) (role : Role) (r : Rig) :
    Handled r (c.unbind role r).2 := by
  unfold Controller.unbind
  cases (c.slot role).output with
  | none => exact .refl r
  | some o =>
    have h := (handled_switch o false r).trans (handled_boardRelease _ [(c.slot role).offset])
    simp only
    rcases hr : Board.release (o.switch false r).2 [(c.slot role).offset] with ⟨_ | _, r'⟩
    · rw [hr] at h
      exact h.trans (.report "Hardware" .warn (by simp +decide) r')
    · rw [hr] at h
      exact h

theorem handled_unbindAll (roles : List Role) :
    ∀ (c : Controller) (r : Rig), Handled r (c.unbindAll roles r).2 := by
  induction roles with
  | nil => exact fun _ r => .refl r
  | cons role rest ih => exact fun c r => (handled_unbind c role r).trans (ih ..)

theorem handled_controllerSwitch (c : Controller) (role : Role) (on : Bool) (r : Rig) :
    Handled r (c.switch role on r).2.2 := by
  unfold Controller.switch
  cases (c.slot role).output with
  | none => exact .refl r
  | some o => exact handled_switch o on r

theorem handled_wire (pins : Each Pin) (r : Rig) : Handled r (Controller.wire pins r).2 := by
  unfold Controller.wire
  split
  · exact .refl r
  · have h₁ := handled_requestPin pins.valve r
    rcases hv : Controller.requestPin pins.valve r with ⟨_ | valve, r₁⟩ <;> rw [hv] at h₁
    · exact h₁
    · have h₂ := h₁.trans (handled_requestPin pins.pump r₁)
      simp only
      rcases hp : Controller.requestPin pins.pump r₁ with ⟨_ | pump, r₂⟩ <;> rw [hp] at h₂
      · exact h₂.trans (handled_boardRelease ..)
      · exact h₂.trans (.log ..)

theorem handled_acquire (pin : Role → Pin) (roles : List Role) :
    ∀ r : Rig, Handled r (Controller.acquire pin roles r).2.2 := by
  induction roles with
  | nil => exact fun r => .refl r
  | cons role rest ih =>
    intro r
    have h := handled_requestPin (pin role) r
    unfold Controller.acquire
    rcases hq : Controller.requestPin (pin role) r with ⟨_ | o, r₁⟩ <;> rw [hq] at h
    · exact h
    · exact h.trans (ih r₁)

theorem handled_settle (target : Role → Offset) (acquired : List (Role × Output)) :
    ∀ (c : Controller) (r : Rig), Handled r (c.settle acquired target r).2 := by
  induction acquired with
  | nil => exact fun _ r => .refl r
  | cons a rest ih => exact fun c r => (Handled.log ..).trans (ih ..)

theorem handled_handBack (target : Role → Offset) (acquired : List (Role × Output)) :
    ∀ r : Rig, Handled r (Controller.handBack acquired target r) := by
  induction acquired with
  | nil => exact fun r => .refl r
  | cons a rest ih => exact fun r => (handled_boardRelease ..).trans (ih _)

theorem handled_restore (roles : List Role) :
    ∀ (c : Controller) (r : Rig), Handled r (c.restore roles r).2 := by
  induction roles with
  | nil => exact fun _ r => .refl r
  | cons role rest ih =>
    intro c r
    have h := handled_requestPin ⟨(c.slot role).offset, (c.slot role).polarity⟩ r
    unfold Controller.restore
    simp only
    rcases hq : Controller.requestPin ⟨(c.slot role).offset, (c.slot role).polarity⟩ r with
      ⟨_ | _, r₁⟩ <;> rw [hq] at h
    · exact (h.trans (.report "Hardware" .error (by simp +decide) r₁)).trans (ih ..)
    · exact (h.trans (.log ..)).trans (ih ..)

/-- **A move writes log records, calls and notices of one line**, whether it succeeds or fails. -/
theorem handled_rebind (c : Controller) (wanted : Each (Option Offset)) (r : Rig) :
    Handled r (c.rebind wanted r).2.2 := by
  unfold Controller.rebind
  simp only
  split
  · exact .refl r
  · split
    · exact .log ..
    · have h := handled_unbindAll (c.moving (c.targets wanted)) c r
      generalize c.unbindAll _ r = unbound at h
      have h' := h.trans (handled_acquire (fun role => ⟨(c.targets wanted).get role,
        (unbound.1.slot role).polarity⟩) (c.moving (c.targets wanted)) unbound.2)
      generalize Controller.acquire _ _ unbound.2 = result at h'
      rcases result with ⟨acquired, _ | ⟨role, e⟩, r'⟩
      · exact h'.trans (handled_settle ..)
      · exact ((h'.trans (.log ..)).trans (handled_handBack ..)).trans (handled_restore ..)

end Rig

end Irrigation
