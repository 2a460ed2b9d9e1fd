import Irrigation.Proofs.Hardware.Deeds

/-!
# Who holds which line

A rig *serves* a list of outputs (`Rig.Serves`) if these are the outputs in use: no two share a
line, every line is at the level that its output remembers, and as long as the chip is open the
claimed lines are exactly theirs. Whatever a controller does to a rig that serves its outputs and
some others leaves a rig that serves its new outputs and the same others, so nobody ever loses a
line to a controller; and no output that a move or a release leaves bound is on unless it was on
before (`Controller.Calms`).
-/

namespace Irrigation

/-! ## Outputs of a controller -/

/-- The other device. -/
def Role.other : Role → Role
  | .valve => .pump
  | .pump => .valve

theorem Role.other_ne (role : Role) : role.other ≠ role := by cases role <;> simp [other]

namespace Controller

/-- The outputs that a controller holds. -/
def outputs (c : Controller) : List Output :=
  c.slots.valve.output.toList ++ c.slots.pump.output.toList

theorem mem_outputs {c : Controller} {o : Output} :
    o ∈ c.outputs ↔ ∃ role, (c.slot role).output = some o := by
  constructor
  · intro h
    rcases List.mem_append.mp h with h | h
    · exact ⟨.valve, Option.mem_toList.mp h⟩
    · exact ⟨.pump, Option.mem_toList.mp h⟩
  · rintro ⟨role, h⟩
    cases role with
    | valve => exact List.mem_append_left _ (Option.mem_toList.mpr h)
    | pump => exact List.mem_append_right _ (Option.mem_toList.mpr h)

/-- The outputs, those of one role first. -/
theorem outputs_perm (c : Controller) (role : Role) :
    c.outputs.Perm ((c.slot role).output.toList ++ (c.slot role.other).output.toList) := by
  cases role with
  | valve => exact .refl _
  | pump => exact List.perm_append_comm

/-- Lets go of a role's output, and leaves the line as it is. -/
def drop (c : Controller) (role : Role) : Controller :=
  c.modify role fun slot => { slot with output := none }

theorem outputs_drop {c : Controller} {role : Role} {o : Output}
    (h : (c.slot role).output = some o) : c.outputs.Perm (o :: (c.drop role).outputs) := by
  refine (outputs_perm c role).trans ?_
  refine .trans ?_ ((outputs_perm (c.drop role) role).symm.cons o)
  simp [h, drop, slot_modify, Role.other_ne]

theorem outputs_modify {c : Controller} {role : Role} {o : Output} {f : Slot → Slot}
    (hf : (f (c.slot role)).output = some o) :
    (c.modify role f).outputs.Perm (o :: (c.drop role).outputs) := by
  refine (outputs_perm _ role).trans ?_
  refine .trans ?_ ((outputs_perm (c.drop role) role).symm.cons o)
  simp [hf, drop, slot_modify, Role.other_ne]

theorem drop_of_none {c : Controller} {role : Role} (h : (c.slot role).output = none) :
    (c.drop role).outputs.Perm c.outputs := by
  refine (outputs_perm _ role).trans (.trans ?_ (outputs_perm c role).symm)
  simp [h, drop, slot_modify, Role.other_ne]

/-- Every bound output is what its role says: the role's line and polarity, as an output. -/
def Fitted (c : Controller) : Prop :=
  ∀ role o, (c.slot role).output = some o →
    o.offset = (c.slot role).offset ∧ o.direction = .output ∧ o.polarity = (c.slot role).polarity

theorem Fitted.modify {c : Controller} (hc : c.Fitted) {role : Role} {f : Slot → Slot}
    (hf : ∀ o, (f (c.slot role)).output = some o → o.offset = (f (c.slot role)).offset ∧
      o.direction = .output ∧ o.polarity = (f (c.slot role)).polarity) :
    (c.modify role f).Fitted := by
  intro r o
  rw [slot_modify]
  split
  · exact hf o
  · exact hc r o

/-- No output of `c'` is on that was not on in `c`, and the polarities are the same. -/
structure Calms (c c' : Controller) : Prop where
  polarity : ∀ role, (c'.slot role).polarity = (c.slot role).polarity
  active : ∀ role o, (c'.slot role).output = some o → o.active = true →
    (c.slot role).output = some o

namespace Calms

variable {c c₁ c₂ : Controller}

theorem refl (c : Controller) : Calms c c := ⟨fun _ => rfl, fun _ _ h _ => h⟩

theorem trans (h₁ : Calms c c₁) (h₂ : Calms c₁ c₂) : Calms c c₂ :=
  ⟨fun role => (h₂.polarity role).trans (h₁.polarity role),
    fun role o ho ha => h₁.active role o (h₂.active role o ho ha) ha⟩

/-- A role that is changed to hold an inactive output, or none. -/
theorem modify (c : Controller) {role : Role} {f : Slot → Slot}
    (hp : (f (c.slot role)).polarity = (c.slot role).polarity)
    (hf : ∀ o, (f (c.slot role)).output = some o → o.active = false) :
    Calms c (c.modify role f) := by
  refine ⟨fun r => ?_, fun r o => ?_⟩
  · rw [slot_modify]
    split
    · next h => rw [hp, h]
    · rfl
  · rw [slot_modify]
    split
    · intro ho ha
      rw [hf o ho] at ha
      exact absurd ha (by simp)
    · exact fun ho _ => ho

end Calms

end Controller

/-! ## Rigs in use -/

namespace Rig

/-- The outputs in use, and nothing else, hold the lines of the chip. -/
structure Serves (r : Rig) (held : List Output) : Prop where
  nodup : (held.map Output.offset).Nodup
  hasLine : ∀ o ∈ held, r.chip.hasLine o.offset
  level : ∀ o ∈ held, o.direction = .output →
    r.chip.level? o.offset = some (o.polarity.level o.active)
  claimed : r.chip.isOpen → ∀ n, r.chip.isClaimed n ↔ n ∈ held.map Output.offset
  obeys : r.faults.refusesRelease = false

variable {r r' : Rig} {held held' rest : List Output} {o : Output}

theorem Serves.perm (h : r.Serves held) (p : held.Perm held') : r.Serves held' where
  nodup := (p.map _).nodup_iff.mp h.nodup
  hasLine := fun o ho => h.hasLine o (p.mem_iff.mpr ho)
  level := fun o ho => h.level o (p.mem_iff.mpr ho)
  claimed := fun hopen n => (h.claimed hopen n).trans (p.map _).mem_iff
  obeys := h.obeys

/-- Only the chip and its faults matter. -/
theorem Serves.of_eq (h : r.Serves held) (hc : r'.chip = r.chip) (hf : r'.faults = r.faults) :
    r'.Serves held where
  nodup := h.nodup
  hasLine := by rw [hc]; exact h.hasLine
  level := by rw [hc]; exact h.level
  claimed := by rw [hc]; exact h.claimed
  obeys := by rw [hf]; exact h.obeys

theorem Serves.ne_of_mem (h : r.Serves (o :: rest)) {o' : Output} (ho : o' ∈ rest) :
    o'.offset ≠ o.offset := by
  have hn := h.nodup
  rw [List.map_cons, List.nodup_cons] at hn
  exact fun he => hn.1 (he ▸ List.mem_map_of_mem ho)

/-- Setting the level of a held line to that of the output's new state. -/
theorem Serves.setLevel (h : r.Serves (o :: rest)) (on : Bool) :
    Serves { r with chip := r.chip.setLevel o.offset (o.polarity.level on) }
      ({ o with active := on } :: rest) where
  nodup := h.nodup
  hasLine := by
    intro o' ho'
    rcases List.mem_cons.mp ho' with rfl | ho'
    · exact h.hasLine o (.head _)
    · exact h.hasLine o' (.tail _ ho')
  level := by
    intro o' ho' hd
    rw [Chip.level?_setLevel _ _ _ _ (h.hasLine o (.head _))]
    rcases List.mem_cons.mp ho' with rfl | ho'
    · exact if_pos rfl
    · rw [if_neg (h.ne_of_mem ho')]
      exact h.level o' (.tail _ ho') hd
  claimed := h.claimed
  obeys := h.obeys

theorem drive_of_output (hd : o.direction = .output) (on : Bool) (r : Rig) :
    o.drive on r = ({ o with active := on },
      { r with chip := r.chip.setLevel o.offset (o.polarity.level on) }) := by
  simp only [Output.drive, hd]
  rfl

theorem switch_of_output (hd : o.direction = .output) (on : Bool) (r : Rig) :
    o.switch on r = ({ o with active := on },
      { record r (.driven o.offset on) with
        chip := r.chip.setLevel o.offset (o.polarity.level on) }) := by
  rw [Output.switch, drive_of_output hd]
  rfl

theorem Serves.drive (h : r.Serves (o :: rest)) (on : Bool) :
    (o.drive on r).2.Serves ((o.drive on r).1 :: rest) := by
  cases hd : o.direction with
  | output =>
    rw [drive_of_output hd]
    exact h.setLevel on
  | input =>
    simp only [Output.drive, hd]
    exact h.of_eq rfl rfl

theorem Serves.switch (h : r.Serves (o :: rest)) (hd : o.direction = .output) (on : Bool) :
    (o.switch on r).2.Serves ({ o with active := on } :: rest) := by
  rw [switch_of_output hd]
  exact (h.setLevel on).of_eq rfl rfl

/-! ## Requests and releases -/

theorem request_error {who : String} {n : Offset} {d : Direction} {p : Polarity} {e : LineError}
    (hq : r.request who n d p = (.error e, r')) : r' = r := by
  unfold Rig.request at hq
  split at hq
  · exact (Prod.mk.inj hq).2.symm
  · cases hq

/-- One more output, on a line that was nobody's. -/
theorem Serves.insert (h : r.Serves held) (hnew : o.offset ∉ held.map Output.offset)
    (hline : r.chip.hasLine o.offset) (hf : r'.faults = r.faults)
    (hopen : r'.chip.isOpen = r.chip.isOpen)
    (hlines : ∀ n, r'.chip.hasLine n = r.chip.hasLine n)
    (hlevels : ∀ n, n ≠ o.offset → r'.chip.level? n = r.chip.level? n)
    (hlevel : o.direction = .output →
      r'.chip.level? o.offset = some (o.polarity.level o.active))
    (hclaims : ∀ n, r'.chip.isClaimed n = (n == o.offset || r.chip.isClaimed n)) :
    r'.Serves (o :: held) where
  nodup := List.nodup_cons.mpr ⟨hnew, h.nodup⟩
  hasLine := by
    intro o' ho'
    rw [hlines]
    rcases List.mem_cons.mp ho' with rfl | ho'
    · exact hline
    · exact h.hasLine o' ho'
  level := by
    intro o' ho' hd
    rcases List.mem_cons.mp ho' with rfl | ho'
    · exact hlevel hd
    · rw [hlevels _ fun he => hnew (he ▸ List.mem_map_of_mem ho')]
      exact h.level o' ho' hd
  claimed := by
    intro ho n
    rw [hopen] at ho
    rw [hclaims, Bool.or_eq_true, beq_iff_eq, h.claimed ho n, List.map_cons, List.mem_cons]
  obeys := by rw [hf]; exact h.obeys

/-- A line that can be had was nobody's; its new output is inactive. -/
theorem Serves.request (h : r.Serves held) {who : String} {n : Offset} {d : Direction}
    {p : Polarity} (hq : r.request who n d p = (.ok o, r')) :
    o = ⟨n, d, p, false⟩ ∧ r'.Serves (o :: held) := by
  unfold Rig.request at hq
  split at hq
  · cases hq
  · next hfree =>
    obtain ⟨hopen, hline, hclaim⟩ := (Chip.refusal?_eq_none _ _).mp hfree
    have hnew : n ∉ held.map Output.offset := fun hmem => by
      simp [(h.claimed hopen n).mpr hmem] at hclaim
    cases d with
    | output =>
      obtain ⟨ho, rfl⟩ := Prod.mk.inj hq
      obtain rfl := Except.ok.inj ho
      have hlevel := fun m => Chip.level?_setLevel (r.chip.claim n who) n m (p.level false)
      refine ⟨rfl, h.insert hnew hline rfl rfl (fun _ => rfl) (fun m hm => ?_) (fun _ => ?_)
        (Chip.isClaimed_claim _ _ · who)⟩
      · exact (hlevel m hline).trans (if_neg hm)
      · exact (hlevel n hline).trans (if_pos rfl)
    | input =>
      obtain ⟨ho, rfl⟩ := Prod.mk.inj hq
      obtain rfl := Except.ok.inj ho
      exact ⟨rfl, h.insert hnew hline rfl rfl (fun _ => rfl) (fun _ _ => rfl)
        (by intro hd; cases hd) (Chip.isClaimed_claim _ _ · who)⟩

/-- After a release the line is nobody's. -/
theorem Serves.release (h : r.Serves (o :: rest)) : (r.release [o.offset]).2.Serves rest := by
  have hn := List.nodup_cons.mp (show (o.offset :: rest.map Output.offset).Nodup from h.nodup)
  have hrest : ∀ o' ∈ rest, o' ∈ o :: rest := fun _ => .tail _
  unfold Rig.release
  rw [h.obeys, Bool.false_or, Chip.canRelease_singleton]
  split
  · next hfree =>
    refine ⟨hn.2, fun o' ho' => h.hasLine o' (hrest o' ho'),
      fun o' ho' => h.level o' (hrest o' ho'), fun hopen => ?_, h.obeys⟩
    have hc := (h.claimed hopen o.offset).mpr (.head _)
    rw [hc] at hfree
    cases hfree
  · refine ⟨hn.2, fun o' ho' => h.hasLine o' (hrest o' ho'),
      fun o' ho' => h.level o' (hrest o' ho'), fun hopen n => ?_, h.obeys⟩
    change (Chip.unclaim _ _).isClaimed n ↔ _
    rw [Chip.isClaimed_unclaim, Bool.and_eq_true, h.claimed hopen n, List.map_cons, List.mem_cons]
    simp only [List.contains_cons, List.contains_nil, Bool.or_false, Bool.not_eq_true',
      beq_eq_false_iff_ne]
    constructor
    · rintro ⟨hne, he | hm⟩
      · exact absurd he hne
      · exact hm
    · intro hm
      exact ⟨fun he => hn.1 (he ▸ hm), .inr hm⟩

/-- Closing the chip takes the claims, not the outputs. -/
theorem Serves.close (h : r.Serves held) : r.close.Serves held where
  nodup := h.nodup
  hasLine := h.hasLine
  level := h.level
  claimed := fun hopen => by cases hopen
  obeys := h.obeys

end Rig

end Irrigation
