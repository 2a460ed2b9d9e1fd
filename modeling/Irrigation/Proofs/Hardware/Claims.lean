import Irrigation.Proofs.Hardware.Moves

/-!
# Claims, consumers and levels

What an operation does to a chip is said line by line. `Chip.SameOff lines` says that nothing but
some lines has changed, and `Chip.Retains` that no claim was lost or passed on. Requests retain
claims, whoever holds them; releases and writes reach their own lines only. From this follows for
each phase of a move which lines it can touch: the lines that roles held (`Controller.linesOf`)
and the lines that were acquired.
-/

namespace Irrigation

/-- The controller's name is short enough to be kept whole. -/
theorem consumerLabel_consumer : consumerLabel Wiring.consumer = Wiring.consumer := by
  decide +kernel

namespace Chip

variable {c c₁ c₂ : Chip} {lines lines' : List Offset} {n offset : Offset}

theorem consumer?_claim (c : Chip) (offset n : Offset) (who : String) :
    (c.claim offset who).consumer? n =
      if n = offset then some (consumerLabel who) else c.consumer? n := by
  simp only [consumer?, claim, List.lookup_cons]
  by_cases h : n = offset
  · simp [h]
  · rw [beq_false_of_ne h, if_neg h]

theorem consumer?_unclaim (c : Chip) (offsets : List Offset) (n : Offset) :
    (c.unclaim offsets).consumer? n = if n ∈ offsets then none else c.consumer? n := by
  simp only [consumer?, unclaim]
  induction c.claims with
  | nil => simp
  | cons held rest ih =>
    obtain ⟨m, who⟩ := held
    rw [List.lookup_cons]
    by_cases hm : m ∈ offsets
    · rw [List.filter_cons_of_neg (by simpa using hm), ih]
      by_cases hn : n = m
      · rw [hn, if_pos hm, if_pos hm]
      · rw [beq_false_of_ne hn]
    · rw [List.filter_cons_of_pos (by simpa using hm), List.lookup_cons, ih]
      by_cases hn : n = m
      · simp [hn, hm]
      · rw [beq_false_of_ne hn]

theorem isClaimed_of_consumer {who : String} (h : c.consumer? n = some who) : c.isClaimed n := by
  rw [isClaimed, h]
  rfl

theorem consumer?_eq_none (h : c.isClaimed n = false) : c.consumer? n = none := by
  rwa [isClaimed, Option.isSome_eq_false_iff, Option.isNone_iff_eq_none] at h

/-! ## Chips that are the same board -/

/-- Two chips have the same lines, and both are open or neither is. -/
structure SameBoard (c c' : Chip) : Prop where
  isOpen : c'.isOpen = c.isOpen
  hasLine : ∀ n, c'.hasLine n = c.hasLine n

theorem SameBoard.refl (c : Chip) : SameBoard c c := ⟨rfl, fun _ => rfl⟩

theorem SameBoard.trans (h₁ : SameBoard c c₁) (h₂ : SameBoard c₁ c₂) : SameBoard c c₂ :=
  ⟨h₂.isOpen.trans h₁.isOpen, fun n => (h₂.hasLine n).trans (h₁.hasLine n)⟩

/-! ## Chips that differ in some lines only -/

/-- Nothing but the claims and levels of some lines differs. -/
structure SameOff (lines : List Offset) (c c' : Chip) : Prop where
  isOpen : c'.isOpen = c.isOpen
  hasLine : ∀ n, c'.hasLine n = c.hasLine n
  consumer : ∀ n, n ∉ lines → c'.consumer? n = c.consumer? n
  level : ∀ n, n ∉ lines → c'.level? n = c.level? n

namespace SameOff

theorem refl (lines : List Offset) (c : Chip) : SameOff lines c c :=
  ⟨rfl, fun _ => rfl, fun _ _ => rfl, fun _ _ => rfl⟩

theorem mono (h : SameOff lines c c₁) (hsub : lines ⊆ lines') : SameOff lines' c c₁ :=
  ⟨h.isOpen, h.hasLine, fun n hn => h.consumer n fun hm => hn (hsub hm),
    fun n hn => h.level n fun hm => hn (hsub hm)⟩

theorem trans (h₁ : SameOff lines c c₁) (h₂ : SameOff lines' c₁ c₂) :
    SameOff (lines ++ lines') c c₂ where
  isOpen := h₂.isOpen.trans h₁.isOpen
  hasLine n := (h₂.hasLine n).trans (h₁.hasLine n)
  consumer n hn := by
    rw [List.mem_append, not_or] at hn
    exact (h₂.consumer n hn.2).trans (h₁.consumer n hn.1)
  level n hn := by
    rw [List.mem_append, not_or] at hn
    exact (h₂.level n hn.2).trans (h₁.level n hn.1)

theorem sameBoard (h : SameOff lines c c₁) : SameBoard c c₁ := ⟨h.isOpen, h.hasLine⟩

theorem isClaimed (h : SameOff lines c c₁) (hn : n ∉ lines) : c₁.isClaimed n = c.isClaimed n := by
  rw [Chip.isClaimed, Chip.isClaimed, h.consumer n hn]

/-- What stands against a line changes only if the line does. -/
theorem refusal? (h : SameOff lines c c₁) (hn : n ∉ lines) : c₁.refusal? n = c.refusal? n := by
  unfold Chip.refusal?
  rw [h.isOpen, h.hasLine, h.isClaimed hn]

theorem setLevel (c : Chip) (offset : Offset) (up : Bool) :
    SameOff [offset] c (c.setLevel offset up) where
  isOpen := rfl
  hasLine _ := rfl
  consumer _ _ := rfl
  level n hn := by
    rw [List.mem_singleton] at hn
    unfold level?
    rw [hasLine_setLevel]
    cases up <;> simp [Chip.setLevel, hn]

theorem claim (c : Chip) (offset : Offset) (who : String) :
    SameOff [offset] c (c.claim offset who) where
  isOpen := rfl
  hasLine _ := rfl
  consumer n hn := by
    rw [List.mem_singleton] at hn
    rw [consumer?_claim, if_neg hn]
  level _ _ := rfl

theorem unclaim (c : Chip) (offsets : List Offset) : SameOff offsets c (c.unclaim offsets) where
  isOpen := rfl
  hasLine _ := rfl
  consumer n hn := by rw [consumer?_unclaim, if_neg hn]
  level _ _ := rfl

end SameOff

/-! ## Claims that are kept -/

/-- Every claim is still there, and its consumer's. -/
structure Retains (c c' : Chip) : Prop where
  consumer : ∀ n, c.isClaimed n → c'.consumer? n = c.consumer? n

namespace Retains

theorem refl (c : Chip) : Retains c c := ⟨fun _ _ => rfl⟩

theorem isClaimed (h : Retains c c₁) (hn : c.isClaimed n) : c₁.isClaimed n := by
  rw [Chip.isClaimed, h.consumer n hn]
  exact hn

theorem isClaimed_eq_false (h : Retains c c₁) (hn : c₁.isClaimed n = false) :
    c.isClaimed n = false :=
  Bool.eq_false_iff.mpr fun hc => Bool.eq_false_iff.mp hn (h.isClaimed hc)

theorem trans (h₁ : Retains c c₁) (h₂ : Retains c₁ c₂) : Retains c c₂ :=
  ⟨fun n hn => (h₂.consumer n (h₁.isClaimed hn)).trans (h₁.consumer n hn)⟩

/-- A claim in somebody's name stays in that name. -/
theorem of_consumer (h : Retains c c₁) {who : String} (hn : c.consumer? n = some who) :
    c₁.consumer? n = some who :=
  (h.consumer n (isClaimed_of_consumer hn)).trans hn

end Retains

end Chip

/-! ## What is done to a rig -/

namespace Rig

variable {r r' : Rig} {o : Output} {pin : Pin}

theorem chip_log (l : Level) (text : String) (r : Rig) : (log l text r).chip = r.chip := rfl

theorem sameOff_drive (o : Output) (on : Bool) (r : Rig) :
    Chip.SameOff [o.offset] r.chip (o.drive on r).2.chip := by
  unfold Output.drive
  split
  · exact .refl ..
  · exact .setLevel ..

theorem sameOff_switch (o : Output) (on : Bool) (r : Rig) :
    Chip.SameOff [o.offset] r.chip (o.switch on r).2.chip :=
  sameOff_drive o on (record r (.driven o.offset on))

theorem consumer?_drive (o : Output) (on : Bool) (r : Rig) (n : Offset) :
    (o.drive on r).2.chip.consumer? n = r.chip.consumer? n := by
  unfold Output.drive
  split <;> rfl

theorem sameOff_release (r : Rig) (offsets : List Offset) :
    Chip.SameOff offsets r.chip (r.release offsets).2.chip := by
  unfold Rig.release
  split
  · exact .refl ..
  · exact .unclaim ..

/-- A release changes no level. -/
theorem level?_release (r : Rig) (offsets : List Offset) (n : Offset) :
    (r.release offsets).2.chip.level? n = r.chip.level? n := by
  unfold Rig.release
  split <;> rfl

/-- A line that is released is nobody's, if the board obeys. -/
theorem isClaimed_release (h : r.faults.refusesRelease = false) (n : Offset) :
    (r.release [n]).2.chip.isClaimed n = false := by
  unfold Rig.release
  split
  · next hrefused =>
    rw [h, Bool.false_or, Bool.not_eq_true', Chip.canRelease_singleton] at hrefused
    exact hrefused
  · rw [chip_log, Chip.isClaimed_unclaim]
    simp

/-- A release claims nothing. -/
theorem not_isClaimed_release {n : Offset} (h : r.chip.isClaimed n = false)
    (offsets : List Offset) : (r.release offsets).2.chip.isClaimed n = false := by
  unfold Rig.release
  split
  · exact h
  · rw [chip_log, Chip.isClaimed_unclaim, h, Bool.and_false]

theorem sameOff_request (r : Rig) (who : String) (n : Offset) (d : Direction) (p : Polarity) :
    Chip.SameOff [n] r.chip (r.request who n d p).2.chip := by
  unfold Rig.request
  split
  · exact .refl ..
  · have h := (Chip.SameOff.claim r.chip n who).trans
      (sameOff_drive ⟨n, d, p, false⟩ false
        (log .debug s!"Chip(sim): line {n} requested by '{who}'"
          { r with chip := r.chip.claim n who }))
    exact h.mono (by simp)

/-- A line that is claimed is refused, so its claim stays. -/
theorem retains_request (r : Rig) (who : String) (n : Offset) (d : Direction) (p : Polarity) :
    Chip.Retains r.chip (r.request who n d p).2.chip := by
  refine ⟨fun m hm => ?_⟩
  unfold Rig.request
  split
  · rfl
  · next hfree =>
    have hne : m ≠ n := by
      rintro rfl
      rw [((Chip.refusal?_eq_none _ _).mp hfree).2.2] at hm
      cases hm
    have hdrive := consumer?_drive ⟨n, d, p, false⟩ false
      (log .debug s!"Chip(sim): line {n} requested by '{who}'"
        { r with chip := r.chip.claim n who }) m
    exact hdrive.trans (by rw [chip_log, Chip.consumer?_claim, if_neg hne])

end Rig

namespace Controller

variable {c : Controller} {role : Role} {r r' : Rig} {others : List Output} {pin : Pin}

/-! ## Requests of the controller -/

theorem sameOff_requestPin (pin : Pin) (r : Rig) :
    Chip.SameOff [pin.offset] r.chip (requestPin pin r).2.chip :=
  Rig.sameOff_request r Wiring.consumer pin.offset .output pin.polarity

theorem retains_requestPin (pin : Pin) (r : Rig) :
    Chip.Retains r.chip (requestPin pin r).2.chip :=
  Rig.retains_request r Wiring.consumer pin.offset .output pin.polarity

theorem requestPin_refused (pin : Pin) {e : LineError} (h : r.chip.refusal? pin.offset = some e) :
    requestPin pin r = (.error e, r) := by
  change r.request Wiring.consumer pin.offset .output pin.polarity = _
  unfold Rig.request
  rw [h]

/-- A line that nothing stands against is had, under the controller's name. -/
theorem requestPin_granted (pin : Pin) (h : r.chip.refusal? pin.offset = none) :
    (requestPin pin r).1 = .ok pin.fresh ∧
      (requestPin pin r).2.chip.consumer? pin.offset = some Wiring.consumer := by
  change (r.request Wiring.consumer pin.offset .output pin.polarity).1 = _ ∧
    (r.request Wiring.consumer pin.offset .output pin.polarity).2.chip.consumer? _ = _
  unfold Rig.request
  rw [h]
  refine ⟨rfl, ?_⟩
  have hclaim := Chip.consumer?_claim r.chip pin.offset pin.offset Wiring.consumer
  rw [if_pos rfl, consumerLabel_consumer] at hclaim
  exact hclaim

end Controller

end Irrigation
