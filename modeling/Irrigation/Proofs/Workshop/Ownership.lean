import Irrigation.Proofs.Hardware.Conduct
import Irrigation.Proofs.World.Outputs

/-!
# Who owns which line

A `Workshop` is a simulated chip in the hands of many: controllers are wired on it, moved, switched
and dropped, third parties request and release lines of their own, and the chip may be closed.
`Workshop.after` is what any sequence of such errands leads to. In all of them the lines are
owned as they should be (`lines_owned`): what a controller stores, what its outputs say and what
the chip has on record are three accounts of the same thing.
-/

namespace Irrigation

/-- A controller that is alive, and the pins that it was wired for. -/
structure Tenant where
  pins : Each Pin
  controller : Controller

/-- A chip, the controllers that are alive on it, and the outputs of third parties. -/
structure Workshop where
  rig : Rig
  tenants : List Tenant := []
  guests : List Output := []

/-- What is done on a chip. Controllers are named by their place among those alive; an errand for
one that does not exist does nothing. -/
inductive Errand
  | build (pins : Each Pin)
  | rebind (i : Nat) (wanted : Each (Option Offset))
  | move (i : Nat) (role : Role) (offset : Offset)
  | switch (i : Nat) (role : Role) (on : Bool)
  | drop (i : Nat)
  | closeChip
  | guest (g : GuestMove)

/-- Whether an errand is an operation of a controller. -/
def Errand.isController : Errand → Bool
  | .closeChip | .guest _ => false
  | _ => true

namespace Workshop

variable {w : Workshop} {i : Nat} {t : Tenant} {c' : Controller} {r' : Rig} {n : Offset}

/-- Has a controller do something. -/
def operate (w : Workshop) (i : Nat) (f : Controller → Rig → Controller × Rig) : Workshop :=
  match w.tenants[i]? with
  | some t =>
    let (controller, rig) := f t.controller w.rig
    { w with rig, tenants := w.tenants.set i { t with controller } }
  | none => w

/-- The workshop after an errand. -/
def next (w : Workshop) : Errand → Workshop
  | .build pins =>
    match Controller.wire pins w.rig with
    | (.ok controller, rig) => { w with rig, tenants := ⟨pins, controller⟩ :: w.tenants }
    | (.error _, rig) => { w with rig }
  | .rebind i wanted => w.operate i fun c r => (c.rebind wanted r).2
  | .move i role offset => w.operate i fun c r => (c.move role offset r).2
  | .switch i role on => w.operate i fun c r => (c.switch role on r).2
  | .drop i =>
    match w.tenants[i]? with
    | some t =>
      { w with rig := (t.controller.release w.rig).2, tenants := w.tenants.eraseIdx i }
    | none => w
  | .closeChip => { w with rig := w.rig.close }
  | .guest g =>
    let (rig, guests) := g.apply (w.rig, w.guests)
    { w with rig, guests }

/-- A workshop that starts with an opened chip, after some errands. -/
def after (path : String) (lines : Nat) (errands : List Errand) : Workshop :=
  errands.foldl next { rig := Rig.openChip path lines }

/-! ## The invariant -/

/-- What is so in every workshop: the rig houses all controllers, their claims are in their name,
their offsets differ, and their polarities are those that they were wired with. -/
structure Tidy (w : Workshop) : Prop where
  houses : w.rig.Houses (w.tenants.map Tenant.controller) w.guests
  labels : ∀ t ∈ w.tenants, w.rig.Labels t.controller
  apart : ∀ t ∈ w.tenants, t.controller.Apart
  polarity : ∀ t ∈ w.tenants, ∀ role,
    (t.controller.slot role).polarity = (t.pins.get role).polarity

/-- The outputs that are not the `i`-th controller's. -/
def others (w : Workshop) (i : Nat) : List Output :=
  ((w.tenants.eraseIdx i).map Tenant.controller).flatMap Controller.outputs ++ w.guests

theorem houses_front (h : w.Tidy) (hi : w.tenants[i]? = some t) : w.rig.Houses
    (t.controller :: (w.tenants.eraseIdx i).map Tenant.controller) w.guests :=
  h.houses.perm ((Rig.perm_cons_eraseIdx hi).map Tenant.controller)

theorem Tidy.hosts (h : w.Tidy) (hi : w.tenants[i]? = some t) :
    w.rig.Hosts t.controller (w.others i) := (houses_front h hi).hosts

theorem guests_subset_others (w : Workshop) (i : Nat) :
    w.guests.map Output.offset ⊆ (w.others i).map Output.offset :=
  List.map_subset _ (List.subset_append_right ..)

/-- Claims that are kept stay in the name of their controller. -/
theorem Tidy.labels_of_consumer (h : w.Tidy) (ht : t ∈ w.tenants)
    (hopen : r'.chip.isOpen = w.rig.chip.isOpen)
    (hkeep : ∀ n ∈ t.controller.lines, w.rig.chip.isClaimed n →
      r'.chip.consumer? n = w.rig.chip.consumer? n) : r'.Labels t.controller := by
  intro hopen' role hb
  have hlabel := h.labels t ht (hopen ▸ hopen') role hb
  rw [hkeep _ (Controller.mem_lines.mpr ⟨role, hb, rfl⟩) (Chip.isClaimed_of_consumer hlabel)]
  exact hlabel

/-- The lines of a controller that stays are among those of others. -/
theorem Tidy.lines_subset_others (h : w.Tidy) (ht : t ∈ w.tenants.eraseIdx i) :
    t.controller.lines ⊆ (w.others i).map Output.offset := by
  have hfitted := h.houses.fitted t.controller
    (List.mem_map_of_mem (List.mem_of_mem_eraseIdx ht))
  rw [← Controller.map_offset_outputs hfitted]
  refine List.map_subset _ fun o ho => List.mem_append_left _ ?_
  exact List.mem_flatMap.mpr ⟨t.controller, List.mem_map_of_mem ht, ho⟩

/-- A controller that behaves leaves a tidy workshop. -/
theorem Tidy.operated (h : w.Tidy) (hi : w.tenants[i]? = some t)
    (hb : Controller.Behaves (w.others i) t.controller w.rig c' r') :
    Tidy { w with rig := r', tenants := w.tenants.set i { t with controller := c' } } := by
  have hperm := Rig.set_perm_cons_eraseIdx hi { t with controller := c' }
  have hmem := List.mem_of_getElem? hi
  have hcases : ∀ {P : Tenant → Prop}, P { t with controller := c' } →
      (∀ t' ∈ w.tenants.eraseIdx i, P t') →
      ∀ t' ∈ w.tenants.set i { t with controller := c' }, P t' := by
    intro P hnew hold t' ht'
    rcases List.mem_cons.mp (hperm.mem_iff.mp ht') with rfl | ht'
    · exact hnew
    · exact hold t' ht'
  refine ⟨((houses_front h hi).house hb.hosts).perm (hperm.map Tenant.controller).symm,
    hcases hb.labels fun t' ht' => ?_, hcases hb.apart fun t' ht' => ?_,
    hcases (fun role => ?_) fun t' ht' => ?_⟩
  · exact h.labels_of_consumer (List.mem_of_mem_eraseIdx ht') hb.isOpen
      fun _ hn => hb.consumer _ (h.lines_subset_others ht' hn)
  · exact h.apart t' (List.mem_of_mem_eraseIdx ht')
  · exact (hb.polarity role).trans (h.polarity t hmem role)
  · exact h.polarity t' (List.mem_of_mem_eraseIdx ht')

/-- Without one of the controllers. -/
theorem Tidy.dropped (h : w.Tidy) (hi : w.tenants[i]? = some t) :
    Tidy { w with
      rig := (t.controller.release w.rig).2, tenants := w.tenants.eraseIdx i } where
  houses := (houses_front h hi).release
  labels := fun _ ht' => h.labels_of_consumer (List.mem_of_mem_eraseIdx ht')
    (Controller.isOpen_release (h.hosts hi))
    fun _ hn _ => Controller.consumer_release (h.hosts hi) (h.lines_subset_others ht' hn)
  apart := fun t' ht' => h.apart t' (List.mem_of_mem_eraseIdx ht')
  polarity := fun t' ht' => h.polarity t' (List.mem_of_mem_eraseIdx ht')

/-- With one controller more. -/
theorem Tidy.built (h : w.Tidy) {pins : Each Pin} {c : Controller}
    (hw : Controller.wire pins w.rig = (.ok c, r')) :
    Tidy { w with rig := r', tenants := ⟨pins, c⟩ :: w.tenants } := by
  obtain ⟨hc, hapart, hlabels⟩ := Controller.wire_ok hw
  have hretains := Controller.retains_wire pins w.rig
  have hopen := (Controller.sameOff_wire pins w.rig).isOpen
  rw [hw] at hretains hopen
  refine ⟨(h.houses.wire hw).1, List.forall_mem_cons.mpr ⟨hlabels, fun t' ht' => ?_⟩,
    List.forall_mem_cons.mpr ⟨hapart, h.apart⟩,
    List.forall_mem_cons.mpr ⟨fun role => ?_, h.polarity⟩⟩
  · exact h.labels_of_consumer ht' hopen fun n _ => hretains.consumer n
  · rw [hc, Controller.slot_wired]

theorem Tidy.unbuilt (h : w.Tidy) {pins : Each Pin} {e : LineError}
    (hw : Controller.wire pins w.rig = (.error e, r')) : Tidy { w with rig := r' } := by
  have hretains := Controller.retains_wire pins w.rig
  have hopen := (Controller.sameOff_wire pins w.rig).isOpen
  rw [hw] at hretains hopen
  exact ⟨h.houses.wire_error hw,
    fun t' ht' => h.labels_of_consumer ht' hopen fun n _ => hretains.consumer n,
    h.apart, h.polarity⟩

/-! ## Third parties -/

/-- A third party leaves the lines of controllers alone. -/
theorem consumer_guest {r : Rig} {guests : List Output} (g : GuestMove)
    (hn : n ∉ guests.map Output.offset) (hclaimed : r.chip.isClaimed n) :
    (g.apply (r, guests)).1.chip.consumer? n = r.chip.consumer? n := by
  cases g with
  | request who offset d p =>
    have h := (Rig.retains_request r who offset d p).consumer n hclaimed
    simp only [GuestMove.apply]
    rcases hq : r.request who offset d p with ⟨_ | o, r'⟩ <;> rw [hq] at h <;> exact h
  | drive j on =>
    simp only [GuestMove.apply]
    cases guests[j]? with
    | none => rfl
    | some o => exact Rig.consumer?_drive o on r n
  | release offsets =>
    simp only [GuestMove.apply]
    split
    · next howned =>
      have h := (Rig.sameOff_release r offsets).consumer n fun hm =>
        hn (by simpa using List.all_eq_true.mp howned n hm)
      rcases hrel : r.release offsets with ⟨_ | _, r'⟩ <;> rw [hrel] at h <;> exact h
    · rfl

theorem sameBoard_guest (r : Rig) (guests : List Output) (g : GuestMove) :
    Chip.SameBoard r.chip (g.apply (r, guests)).1.chip := by
  cases g with
  | request who offset d p =>
    have h := (Rig.sameOff_request r who offset d p).sameBoard
    simp only [GuestMove.apply]
    rcases hq : r.request who offset d p with ⟨_ | o, r'⟩ <;> rw [hq] at h <;> exact h
  | drive j on =>
    simp only [GuestMove.apply]
    cases guests[j]? with
    | none => exact .refl _
    | some o => exact (Rig.sameOff_drive o on r).sameBoard
  | release offsets =>
    simp only [GuestMove.apply]
    split
    · have h := (Rig.sameOff_release r offsets).sameBoard
      rcases hrel : r.release offsets with ⟨_ | _, r'⟩ <;> rw [hrel] at h <;> exact h
    · exact .refl _

theorem Tidy.visited (h : w.Tidy) (g : GuestMove) : (w.next (.guest g)).Tidy where
  houses := World.houses_guest h.houses g
  labels := fun t ht => by
    obtain ⟨i, hi⟩ := List.mem_iff_getElem?.mp ht
    have hopen := (sameBoard_guest w.rig w.guests g).isOpen
    refine h.labels_of_consumer ht hopen fun n hn => consumer_guest g fun hm => ?_
    exact (h.hosts hi).notMem_others hn (guests_subset_others w i hm)
  apart := h.apart
  polarity := h.polarity

/-! ## Any errands -/

theorem Tidy.operate (h : w.Tidy) (i : Nat) {f : Controller → Rig → Controller × Rig}
    (hf : ∀ t, w.tenants[i]? = some t → Controller.Behaves (w.others i) t.controller w.rig
      (f t.controller w.rig).1 (f t.controller w.rig).2) : (w.operate i f).Tidy := by
  unfold Workshop.operate
  split
  · next t hi => exact h.operated hi (hf t hi)
  · exact h

/-- The operations of the `i`-th controller behave. -/
theorem Tidy.behaves (h : w.Tidy) (hi : w.tenants[i]? = some t) :
    (∀ wanted, Controller.Behaves (w.others i) t.controller w.rig
      (t.controller.rebind wanted w.rig).2.1 (t.controller.rebind wanted w.rig).2.2) ∧
    ∀ role on, Controller.Behaves (w.others i) t.controller w.rig
      (t.controller.switch role on w.rig).2.1 (t.controller.switch role on w.rig).2.2 := by
  have hmem := List.mem_of_getElem? hi
  exact ⟨Controller.behaves_rebind (h.hosts hi) (h.labels t hmem) (h.apart t hmem),
    Controller.behaves_switch (h.hosts hi) (h.labels t hmem) (h.apart t hmem)⟩

theorem Tidy.next (h : w.Tidy) (e : Errand) : (w.next e).Tidy := by
  cases e with
  | build pins =>
    simp only [Workshop.next]
    rcases hw : Controller.wire pins w.rig with ⟨e | c, r'⟩
    · exact h.unbuilt hw
    · exact h.built hw
  | rebind i wanted =>
    exact h.operate i (f := fun c r => (c.rebind wanted r).2) fun t hi => (h.behaves hi).1 _
  | move i role offset =>
    exact h.operate i (f := fun c r => (c.move role offset r).2) fun t hi => (h.behaves hi).1 _
  | switch i role on =>
    exact h.operate i (f := fun c r => (c.switch role on r).2) fun t hi => (h.behaves hi).2 ..
  | drop i =>
    simp only [Workshop.next]
    split
    · next t hi => exact h.dropped hi
    · exact h
  | closeChip => exact ⟨h.houses.close, fun _ _ hopen => (by cases hopen), h.apart, h.polarity⟩
  | guest g => exact h.visited g

theorem tidy_after (path : String) (lines : Nat) (errands : List Errand) :
    (after path lines errands).Tidy := by
  have hopened : Tidy { rig := Rig.openChip path lines } :=
    ⟨⟨World.serves_openChip path lines, fun _ hc => absurd hc List.not_mem_nil⟩,
      fun _ ht => absurd ht List.not_mem_nil, fun _ ht => absurd ht List.not_mem_nil,
      fun _ ht => absurd ht List.not_mem_nil⟩
  unfold after
  generalize ({ rig := Rig.openChip path lines } : Workshop) = w at hopened
  induction errands generalizing w with
  | nil => exact hopened
  | cons e rest ih => exact ih _ (hopened.next e)

/-- An operation of a controller takes no claim from a third party. -/
theorem Tidy.spares (h : w.Tidy) {e : Errand} (he : e.isController = true)
    (hn : n ∈ w.guests.map Output.offset) (hclaimed : w.rig.chip.isClaimed n) :
    (w.next e).rig.chip.consumer? n = w.rig.chip.consumer? n := by
  have hoperate : ∀ i (f : Controller → Rig → Controller × Rig),
      (∀ t, w.tenants[i]? = some t → Controller.Behaves (w.others i) t.controller w.rig
        (f t.controller w.rig).1 (f t.controller w.rig).2) →
      (w.operate i f).rig.chip.consumer? n = w.rig.chip.consumer? n := by
    intro i f hf
    unfold Workshop.operate
    split
    · next t ht => exact (hf t ht).consumer n (guests_subset_others w i hn) hclaimed
    · rfl
  cases e with
  | build pins =>
    have hretains := (Controller.retains_wire pins w.rig).consumer n hclaimed
    simp only [Workshop.next]
    rcases hw : Controller.wire pins w.rig with ⟨e | c, r'⟩ <;> rw [hw] at hretains <;>
      exact hretains
  | rebind i wanted =>
    exact hoperate i (fun c r => (c.rebind wanted r).2) fun t ht => (h.behaves ht).1 _
  | move i role offset =>
    exact hoperate i (fun c r => (c.move role offset r).2) fun t ht => (h.behaves ht).1 _
  | switch i role on =>
    exact hoperate i (fun c r => (c.switch role on r).2) fun t ht => (h.behaves ht).2 ..
  | drop i =>
    simp only [Workshop.next]
    split
    · next t ht =>
      exact Controller.consumer_release (h.hosts ht) (guests_subset_others w i hn)
    · rfl
  | closeChip => cases he
  | guest g => cases he

/-! ## The three accounts -/

/-- The lines of a workshop are owned as they should be. -/
structure OwnsLines (w : Workshop) : Prop where
  /-- The two stored offsets of a controller differ. -/
  apart : ∀ t ∈ w.tenants,
    (t.controller.slot .valve).offset ≠ (t.controller.slot .pump).offset
  /-- A bound output reports the stored offset and the polarity that the role was wired with. -/
  reports : ∀ t ∈ w.tenants, ∀ role o, (t.controller.slot role).output = some o →
    o.offset = (t.controller.slot role).offset ∧ o.polarity = (t.pins.get role).polarity ∧
      o.direction = .output
  /-- Claimed are the stored offsets of bound roles, and the lines of third parties. -/
  claimed : w.rig.chip.isOpen → ∀ n, w.rig.chip.isClaimed n ↔
    (∃ t ∈ w.tenants, ∃ role, (t.controller.slot role).isBound ∧
      (t.controller.slot role).offset = n) ∨ n ∈ w.guests.map Output.offset
  /-- No line is claimed for two of them. -/
  once : (w.tenants.flatMap (·.controller.lines) ++ w.guests.map Output.offset).Nodup
  /-- The claims of controllers are in their name. -/
  named : w.rig.chip.isOpen → ∀ t ∈ w.tenants, ∀ role, (t.controller.slot role).isBound →
    w.rig.chip.consumer? (t.controller.slot role).offset = some Wiring.consumer
  /-- No operation of a controller removes or takes over a claim of a third party. -/
  spares : ∀ e : Errand, e.isController = true → ∀ n ∈ w.guests.map Output.offset, ∀ who,
    w.rig.chip.consumer? n = some who → (w.next e).rig.chip.consumer? n = some who

theorem Tidy.flatMap_lines (h : w.Tidy) :
    ((w.tenants.map Tenant.controller).flatMap Controller.outputs).map Output.offset =
      w.tenants.flatMap (·.controller.lines) := by
  rw [List.map_flatMap, List.flatMap_map, List.flatMap_def, List.flatMap_def]
  exact congrArg List.flatten (List.map_congr_left fun t ht =>
    Controller.map_offset_outputs (h.houses.fitted _ (List.mem_map_of_mem ht)))

/-- **Lines are owned as they should be** after any sequence of wirings, moves, switches and drops
of controllers, of requests, writes and releases of third parties, and after a close. -/
theorem lines_owned (path : String) (lines : Nat) (errands : List Errand) :
    (after path lines errands).OwnsLines := by
  have h := tidy_after path lines errands
  generalize after path lines errands = w at h
  have hserves := h.houses.serves
  refine ⟨h.apart, fun t ht role o ho => ?_, fun hopen n => ?_, ?_,
    fun hopen t ht => h.labels t ht hopen, fun e he n hn who hwho => ?_⟩
  · obtain ⟨hoffset, hdir, hpol⟩ := h.houses.fitted _ (List.mem_map_of_mem ht) role o ho
    exact ⟨hoffset, hpol.trans (h.polarity t ht role), hdir⟩
  · rw [hserves.claimed hopen, List.map_append, h.flatMap_lines, List.mem_append,
      List.mem_flatMap]
    simp only [Controller.mem_lines, Controller.line]
  · rw [← h.flatMap_lines, ← List.map_append]
    exact hserves.nodup
  · rw [h.spares he hn (Chip.isClaimed_of_consumer hwho)]
    exact hwho

end Workshop

end Irrigation
