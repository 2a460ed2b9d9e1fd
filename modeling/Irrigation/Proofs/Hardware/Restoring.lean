import Irrigation.Proofs.Hardware.Rebinding

/-!
# What a failed move loses

A move that fails on an open chip has put everything back (`Controller.Restored`): who claims
which line is exactly what it was. On a closed chip nothing can be put back
(`Controller.Lost`): the roles that were to move hold nothing then, but their lines are inactive.
-/

namespace Irrigation

namespace Controller

variable {c : Controller} {role : Role} {r r₃ : Rig} {others : List Output}
  {wanted : Each (Option Offset)} {target : Each Offset} {e : LineError}

/-! ## A move that fails on an open chip -/

/-- What a move leaves that failed on an open chip: each role on the line it had, the ones that
were to move inactive and the others untouched; every claim as it was; and no level changed but
of lines that were to be given up or taken. -/
structure Restored (c : Controller) (target : Each Offset) (r : Rig) (c' : Controller)
    (r' : Rig) : Prop where
  moves : ∀ role, c.Moves target role → c'.slot role =
    { c.slot role with output := some (Pin.fresh ⟨c.line role, (c.slot role).polarity⟩) }
  stays : ∀ role, ¬ c.Moves target role → c'.slot role = c.slot role
  calmed : ∀ role, c.Moves target role →
    r'.chip.level? (c.line role) = some ((c.slot role).polarity.level false)
  kept : ∀ role, ¬ c.Moves target role → r'.chip.level? (c.line role) = r.chip.level? (c.line role)
  consumer : ∀ n, r'.chip.consumer? n = r.chip.consumer? n
  level : ∀ n, n ∉ (c.moving target).map target.get → n ∉ c.linesOf (c.moving target) →
    r'.chip.level? n = r.chip.level? n

/-- After handing back, the lines that were let go can be had again. -/
theorem Withdrawn.refusal? (h : r.Hosts c others) (hopen : r.chip.isOpen)
    (hw : Withdrawn c target others r r₃) (hm : c.Moves target role)
    (hb : (c.slot role).isBound) : r₃.chip.refusal? (c.line role) = none := by
  have hvac := sameOff_vacated h target
  have hopen₃ : r₃.chip.isOpen := by rw [hw.sameOff.isOpen, hvac.isOpen, hopen]
  refine (Chip.refusal?_eq_none _ _).mpr ⟨hopen₃, ?_, isClaimed_given h hw.hosts hopen₃ hm hb⟩
  rw [hw.sameOff.hasLine, hvac.hasLine]
  exact h.hasLine hb

/-- Handing back leaves exactly the claims of the lines that nobody let go of. -/
theorem Withdrawn.consumer (h : r.Hosts c others) (hopen : r.chip.isOpen)
    (hw : Withdrawn c target others r r₃) (n : Offset) :
    r₃.chip.consumer? n = (c.vacated target r).chip.consumer? n := by
  have hopen' : (c.vacated target r).chip.isOpen := (sameOff_vacated h target).isOpen ▸ hopen
  by_cases hclaimed : (c.vacated target r).chip.isClaimed n
  · exact hw.retains.consumer n hclaimed
  · have hfree : r₃.chip.isClaimed n = false := by
      rw [Bool.eq_false_iff, ne_eq, hw.hosts.isClaimed (hw.sameOff.isOpen ▸ hopen'),
        ← (hosts_vacated h target).isClaimed hopen']
      exact hclaimed
    rw [Chip.consumer?_eq_none hfree, Chip.consumer?_eq_none (Bool.eq_false_iff.mpr hclaimed)]

/-- The claims that remain of the controller's are in its name. -/
theorem Withdrawn.labels (h : r.Hosts c others) (hl : r.Labels c)
    (hw : Withdrawn c target others r r₃) : r₃.Labels (c.dropAll (c.moving target)) :=
  fun hopen role hb => hw.retains.of_consumer
    (labels_unbindAll h hl (c.moving target) (hw.sameOff.isOpen ▸ hopen) role hb)

theorem map_line_dropAll (c : Controller) (roles : List Role) :
    roles.map (c.dropAll roles).line = roles.map c.line :=
  List.map_congr_left fun role _ => line_dropAll c roles role

/-- Restoring touches nothing but the lines of the roles that were to move. -/
theorem sameOff_restored (c : Controller) (target : Each Offset) (r₃ : Rig) :
    Chip.SameOff ((c.moving target).map c.line) r₃.chip
      ((c.dropAll (c.moving target)).restore (c.moving target) r₃).2.chip := by
  rw [← map_line_dropAll c (c.moving target)]
  exact sameOff_restore _ _ _

/-- The roles that were to move are back on the lines they had, inactive. -/
theorem Withdrawn.slot (h : r.Hosts c others) (hopen : r.chip.isOpen)
    (hb : ∀ role, (c.slot role).isBound) (hw : Withdrawn c target others r r₃) (role : Role) :
    ((c.dropAll (c.moving target)).restore (c.moving target) r₃).1.slot role =
      if role ∈ c.moving target then
        { c.slot role with output := some (Pin.fresh ⟨c.line role, (c.slot role).polarity⟩) }
      else c.slot role := by
  have hnodup : ((c.moving target).map (c.dropAll (c.moving target)).line).Nodup := by
    rw [map_line_dropAll]
    exact List.pairwise_map.mpr
      ((nodup_moving c target).imp fun hne => h.line_ne (hb _) (hb _) hne)
  rw [restore_granted (c.moving target) hnodup fun role hmem => by
    rw [line_dropAll]
    exact hw.refusal? h hopen (mem_moving.mp hmem) (hb role)]
  rw [polarity_dropAll, line_dropAll, slot_dropAll]
  split <;> rfl

/-- No level has changed but of lines that were to be given up or taken. -/
theorem Withdrawn.level (h : r.Hosts c others) (hb : ∀ role, (c.slot role).isBound)
    (hw : Withdrawn c target others r r₃) {n : Offset}
    (htarget : n ∉ (c.moving target).map target.get) (hn : n ∉ c.linesOf (c.moving target)) :
    ((c.dropAll (c.moving target)).restore (c.moving target) r₃).2.chip.level? n =
      r.chip.level? n := by
  rw [(sameOff_restored c target r₃).level, hw.sameOff.level n htarget,
    (sameOff_vacated h target).level n hn]
  intro hm
  obtain ⟨role, hmem, he⟩ := List.mem_map.mp hm
  exact hn (mem_linesOf.mpr ⟨role, hmem, hb role, he⟩)

/-- Every claim is as it was: the lines of the roles that were to move are claimed again in the
program's name, and the others never changed hands. -/
theorem Withdrawn.consumer_restored (h : r.Hosts c others) (hl : r.Labels c)
    (hopen : r.chip.isOpen) (hb : ∀ role, (c.slot role).isBound)
    (hw : Withdrawn c target others r r₃) (n : Offset) :
    ((c.dropAll (c.moving target)).restore (c.moving target) r₃).2.chip.consumer? n =
      r.chip.consumer? n := by
  have hvac := sameOff_vacated h target
  have hoff := sameOff_restored c target r₃
  by_cases hn : n ∈ (c.moving target).map c.line
  · obtain ⟨role, hmem, rfl⟩ := List.mem_map.mp hn
    have hlabel := labels_restore (c.moving target) (hw.labels h hl)
      (by rw [hoff.isOpen, hw.sameOff.isOpen, hvac.isOpen, hopen]) role
      (by rw [hw.slot h hopen hb, if_pos hmem]; rfl)
    rw [line_restore, line_dropAll] at hlabel
    rw [hlabel, hl hopen role (hb role)]
  · rw [hoff.consumer n hn, hw.consumer h hopen, hvac.consumer]
    intro hm
    obtain ⟨role, hmem, -, he⟩ := mem_linesOf.mp hm
    exact hn (List.mem_map.mpr ⟨role, hmem, he⟩)

theorem restored_rebind (h : r.Hosts c others) (hl : r.Labels c) (hopen : r.chip.isOpen)
    (hb : ∀ role, (c.slot role).isBound)
    (hne : (c.targets wanted).valve ≠ (c.targets wanted).pump)
    (herr : (c.rebind wanted r).1 = .error e) :
    c.Restored (c.targets wanted) r (c.rebind wanted r).2.1 (c.rebind wanted r).2.2 := by
  have hhosts := (hosts_rebind h wanted).1
  obtain ⟨-, r₂, -, hres, hchip, hfaults⟩ := rebind_error hne herr
  have hw := withdrawn_handBack h (c.targets wanted) hchip hfaults
  generalize c.targets wanted = target at *
  generalize handBack (c.bid target r).1 target.get r₂ = r₃ at *
  rw [hres] at hhosts ⊢
  have hmoves : ∀ role, c.Moves target role →
      ((c.dropAll (c.moving target)).restore (c.moving target) r₃).1.slot role =
        { c.slot role with output := some (Pin.fresh ⟨c.line role, (c.slot role).polarity⟩) } :=
    fun role hm => by rw [hw.slot h hopen hb, if_pos (mem_moving.mpr hm)]
  refine ⟨hmoves, fun role hs => ?_, fun role hm => ?_, fun role hs => ?_,
    hw.consumer_restored h hl hopen hb, fun _ => hw.level h hb⟩
  · rw [hw.slot h hopen hb, if_neg (mt mem_moving.mp hs)]
  · exact hhosts.serves.level (Pin.fresh ⟨c.line role, (c.slot role).polarity⟩)
      (List.mem_append_left _ (mem_outputs.mpr ⟨role, by rw [hmoves role hm]⟩)) rfl
  · obtain ⟨hout, htarget⟩ := line_notMem h hne hs
    exact hw.level h hb htarget hout

/-! ## A move that fails on a closed chip -/

/-- What a move leaves that failed on a closed chip: the roles that were to move hold nothing,
their offsets are what they were and their lines inactive; everything else is untouched. -/
structure Lost (c : Controller) (target : Each Offset) (r : Rig) (c' : Controller) (r' : Rig) :
    Prop where
  moves : ∀ role, c.Moves target role → c'.slot role = { c.slot role with output := none }
  stays : ∀ role, ¬ c.Moves target role → c'.slot role = c.slot role
  calmed : ∀ role, c.Moves target role → (c.slot role).isBound →
    r'.chip.level? (c.line role) = some ((c.slot role).polarity.level false)
  kept : ∀ role, ¬ c.Moves target role → r'.chip.level? (c.line role) = r.chip.level? (c.line role)
  elsewhere : Chip.SameOff (c.linesOf (c.moving target)) r.chip r'.chip

theorem lost_rebind (h : r.Hosts c others) (hclosed : r.chip.isOpen = false)
    (hne : (c.targets wanted).valve ≠ (c.targets wanted).pump)
    (herr : (c.rebind wanted r).1 = .error e) :
    e = .chipClosed ∧
      c.Lost (c.targets wanted) r (c.rebind wanted r).2.1 (c.rebind wanted r).2.2 := by
  obtain ⟨role, r₂, hsome, hres, hchip, -⟩ := rebind_error hne herr
  generalize c.targets wanted = target at *
  have hmoving : c.moving target ≠ [] := by
    intro hnil
    rw [bid, hnil] at hsome
    cases hsome
  obtain ⟨role', hbid⟩ := bid_closed h hclosed hmoving
  rw [hbid] at hsome hres hchip
  have hvac := sameOff_vacated h target
  change r₂.chip = (c.vacated target r).chip at hchip
  obtain ⟨hctrl, hsame⟩ := restore_refused (c.moving target) (c := c.dropAll (c.moving target))
    (r := r₂) fun role _ => by
      unfold Chip.refusal?
      rw [hchip, hvac.isOpen, hclosed]
      simp
  change (c.rebind wanted r).2 = (c.dropAll (c.moving target)).restore (c.moving target) r₂ at hres
  rw [hres, hctrl]
  rw [← hsame] at hchip
  generalize ((c.dropAll (c.moving target)).restore (c.moving target) r₂).2 = r' at hchip
  refine ⟨(Prod.mk.inj (Option.some.inj hsome)).2.symm,
    ⟨fun role hm => ?_, fun role hs => ?_, fun role hm hb => ?_, fun role hs => ?_, ?_⟩⟩
  · rw [slot_dropAll, if_pos (mem_moving.mpr hm)]
  · rw [slot_dropAll, if_neg (mt mem_moving.mp hs)]
  · rw [hchip]
    exact level_unbindAll _ h role (mem_moving.mpr hm) hb
  · rw [hchip]
    exact hvac.level _ (line_notMem h hne hs).1
  · rw [hchip]
    exact hvac

end Controller

end Irrigation
