import Irrigation.Proofs.Hardware.Claims
import Irrigation.Proofs.Hardware.Release

/-!
# The phases of a move

A move lets go of lines, acquires others, and then either settles or hands back what it got and
restores what it had. For each phase: which slots and which lines of the chip it changes, and to
what (`sameOff_unbindAll`, `level_unbindAll`, `acquire_failure`, `acquire_acquires`, `slot_settle`,
`restore_granted`, `restore_refused`). Main definitions: `Controller.lines`, the lines that a
controller holds, and `Rig.Labels`, which says that they are claimed in its name.
-/

namespace Irrigation

namespace Controller

variable {c : Controller} {role : Role} {r r' : Rig} {others : List Output}

/-! ## Lines of roles -/

/-- The lines of those of some roles that are bound. -/
def linesOf (c : Controller) (roles : List Role) : List Offset :=
  (roles.filter fun role => (c.slot role).isBound).map c.line

/-- The lines of the bound roles. -/
def lines (c : Controller) : List Offset := c.linesOf Role.all

theorem mem_linesOf {roles : List Role} {n : Offset} :
    n ∈ c.linesOf roles ↔ ∃ role ∈ roles, (c.slot role).isBound ∧ c.line role = n := by
  simp only [linesOf, List.mem_map, List.mem_filter, and_assoc]

theorem mem_lines {n : Offset} :
    n ∈ c.lines ↔ ∃ role, (c.slot role).isBound ∧ c.line role = n := by
  simp only [lines, mem_linesOf, Role.mem_all, true_and]

theorem linesOf_subset_lines (c : Controller) (roles : List Role) : c.linesOf roles ⊆ c.lines := by
  intro n hn
  obtain ⟨role, -, h⟩ := mem_linesOf.mp hn
  exact mem_lines.mpr ⟨role, h⟩

theorem isBound_iff {s : Slot} : s.isBound ↔ ∃ o, s.output = some o := Option.isSome_iff_exists

theorem map_offset_outputs (hc : c.Fitted) : c.outputs.map Output.offset = c.lines := by
  have hv : ∀ o, c.slots.valve.output = some o → o.offset = c.line .valve :=
    fun o ho => (hc .valve o ho).1
  have hp : ∀ o, c.slots.pump.output = some o → o.offset = c.line .pump :=
    fun o ho => (hc .pump o ho).1
  simp only [outputs, lines, linesOf, Role.all, slot, Slot.isBound, Each.get]
  cases h₁ : c.slots.valve.output <;> cases h₂ : c.slots.pump.output <;> simp_all

theorem line_dropAll (c : Controller) (roles : List Role) (role : Role) :
    (c.dropAll roles).line role = c.line role := by
  unfold line
  rw [slot_dropAll]
  split <;> rfl

theorem line_bind (c : Controller) (role : Role) (o : Output) (role' : Role) :
    (c.bind role o).line role' = c.line role' := by
  rw [line, line, bind, slot_modify]
  split
  · next he => rw [he]
  · rfl

theorem polarity_dropAll (c : Controller) (roles : List Role) (role : Role) :
    ((c.dropAll roles).slot role).polarity = (c.slot role).polarity :=
  (Calms.dropAll roles c).polarity role

theorem isBound_dropAll (c : Controller) (roles : List Role) (role : Role) :
    ((c.dropAll roles).slot role).isBound ↔ role ∉ roles ∧ (c.slot role).isBound := by
  rw [slot_dropAll]
  split
  · next h => simp [Slot.isBound, h]
  · next h => simp [h]

end Controller

/-! ## Lines of a hosted controller -/

namespace Rig

variable {c : Controller} {role role' : Role} {r r' : Rig} {others : List Output} {n : Offset}

/-- All lines in use, those of the controller first. -/
theorem Hosts.nodup (h : r.Hosts c others) : (c.lines ++ others.map Output.offset).Nodup := by
  have hn := h.serves.nodup
  rwa [List.map_append, Controller.map_offset_outputs h.fitted] at hn

theorem Hosts.isClaimed (h : r.Hosts c others) (hopen : r.chip.isOpen) (n : Offset) :
    r.chip.isClaimed n ↔ n ∈ c.lines ∨ n ∈ others.map Output.offset := by
  rw [h.serves.claimed hopen, List.map_append, Controller.map_offset_outputs h.fitted,
    List.mem_append]

theorem Hosts.notMem_others (h : r.Hosts c others) (hn : n ∈ c.lines) :
    n ∉ others.map Output.offset :=
  fun hm => (List.nodup_append.mp h.nodup).2.2 _ hn _ hm rfl

/-- The roles hold different lines. -/
theorem Hosts.line_ne (h : r.Hosts c others) (hb : (c.slot role).isBound)
    (hb' : (c.slot role').isBound) (hne : role ≠ role') : c.line role ≠ c.line role' := by
  have hnodup := (List.nodup_append.mp h.nodup).1
  have hlt : ∀ a b : Role, (c.slot a).isBound → (c.slot b).isBound → a = .valve → b = .pump →
      c.line a ≠ c.line b := by
    rintro _ _ ha hb rfl rfl
    simpa [Controller.lines, Controller.linesOf, Role.all, ha, hb] using hnodup
  cases role <;> cases role'
  · exact absurd rfl hne
  · exact hlt _ _ hb hb' rfl rfl
  · exact (hlt _ _ hb' hb rfl rfl).symm
  · exact absurd rfl hne

theorem Hosts.line_notMem_linesOf (h : r.Hosts c others) {roles : List Role} (hrole : role ∉ roles)
    (hb : (c.slot role).isBound) : c.line role ∉ c.linesOf roles := by
  intro hm
  obtain ⟨role', hmem, hb', he⟩ := Controller.mem_linesOf.mp hm
  exact h.line_ne hb' hb (fun heq => hrole (heq ▸ hmem)) he

theorem Hosts.hasLine (h : r.Hosts c others) (hb : (c.slot role).isBound) :
    r.chip.hasLine (c.line role) := by
  obtain ⟨o, ho⟩ := Controller.isBound_iff.mp hb
  have hline := h.serves.hasLine o
    (List.mem_append_left _ (Controller.mem_outputs.mpr ⟨role, ho⟩))
  rwa [(h.fitted role o ho).1] at hline

/-- While the chip is open, the lines of the bound roles are claimed in the controller's name. -/
def Labels (r : Rig) (c : Controller) : Prop :=
  r.chip.isOpen → ∀ role, (c.slot role).isBound →
    r.chip.consumer? (c.line role) = some Wiring.consumer

theorem Labels.of_chip (h : r.Labels c) (hc : r'.chip = r.chip) : r'.Labels c := by
  rwa [Labels, hc]

end Rig

namespace Controller

variable {c : Controller} {role : Role} {r r' : Rig} {others : List Output}

/-! ## Letting go -/

/-- What letting go does to the chip. -/
theorem chip_unbind {o : Output} (ho : (c.slot role).output = some o) (r : Rig) :
    (c.unbind role r).2.chip = ((o.switch false r).2.release [(c.slot role).offset]).2.chip := by
  change _ = (Board.release (o.switch false r).2 [(c.slot role).offset]).2.chip
  unfold unbind
  simp only [ho]
  rcases Board.release (o.switch false r).2 [(c.slot role).offset] with ⟨_ | _, r'⟩ <;> rfl

theorem sameOff_unbind (hc : c.Fitted) (role : Role) (r : Rig) :
    Chip.SameOff (c.linesOf [role]) r.chip (c.unbind role r).2.chip := by
  cases ho : (c.slot role).output with
  | none =>
    rw [Rig.unbind_of_none ho]
    exact .refl ..
  | some o =>
    have hline : c.line role ∈ c.linesOf [role] :=
      mem_linesOf.mpr ⟨role, .head _, isBound_iff.mpr ⟨o, ho⟩, rfl⟩
    have hoff := Rig.sameOff_switch o false r
    rw [(hc role o ho).1] at hoff
    rw [chip_unbind ho]
    exact (hoff.trans (Rig.sameOff_release (o.switch false r).2 [(c.slot role).offset])).mono
      (by simpa [line] using hline)

/-- A role that lets go leaves its line inactive. -/
theorem level_unbind (h : r.Hosts c others) (hb : (c.slot role).isBound) :
    (c.unbind role r).2.chip.level? (c.line role) =
      some ((c.slot role).polarity.level false) := by
  obtain ⟨o, ho⟩ := isBound_iff.mp hb
  obtain ⟨hoffset, hdir, hpol⟩ := h.fitted role o ho
  have hlevel := (hosts_switch h ho false).serves.level { o with active := false }
    (List.mem_append_left _ (mem_outputs.mpr ⟨role, by rw [bind, slot_modify, if_pos rfl]⟩)) hdir
  rw [hoffset, hpol] at hlevel
  rw [chip_unbind ho]
  exact (Rig.level?_release ..).trans hlevel

/-- A role that lets go leaves its line to everybody. -/
theorem isClaimed_unbind (h : r.Hosts c others) (hb : (c.slot role).isBound) :
    (c.unbind role r).2.chip.isClaimed (c.line role) = false := by
  obtain ⟨o, ho⟩ := isBound_iff.mp hb
  rw [chip_unbind ho]
  exact Rig.isClaimed_release (hosts_switch h ho false).serves.obeys _

theorem not_isClaimed_unbind {n : Offset} (h : r.chip.isClaimed n = false) (c : Controller)
    (role : Role) : (c.unbind role r).2.chip.isClaimed n = false := by
  cases ho : (c.slot role).output with
  | none => rwa [Rig.unbind_of_none ho]
  | some o =>
    rw [chip_unbind ho]
    refine Rig.not_isClaimed_release ?_ _
    rwa [Chip.isClaimed, Output.switch, Rig.consumer?_drive]

theorem not_isClaimed_unbindAll (roles : List Role) : ∀ {c : Controller} {r : Rig} {n : Offset},
    r.chip.isClaimed n = false → (c.unbindAll roles r).2.chip.isClaimed n = false := by
  induction roles with
  | nil => exact fun h => h
  | cons role rest ih => exact fun h => ih (not_isClaimed_unbind h ..)

theorem sameOff_unbindAll (roles : List Role) :
    ∀ {c : Controller}, c.Fitted → ∀ r : Rig,
      Chip.SameOff (c.linesOf roles) r.chip (c.unbindAll roles r).2.chip := by
  induction roles with
  | nil => exact fun _ _ => .refl ..
  | cons role rest ih =>
    intro c hc r
    have hrest := ih (hc.drop role) (c.unbind role r).2
    rw [← fst_unbind c role r] at hrest
    refine ((sameOff_unbind hc role r).trans hrest).mono fun n hn => ?_
    rw [fst_unbind] at hn
    rcases List.mem_append.mp hn with hn | hn <;>
      obtain ⟨role', hmem, hb, rfl⟩ := mem_linesOf.mp hn
    · obtain rfl := List.mem_singleton.mp hmem
      exact mem_linesOf.mpr ⟨_, .head _, hb, rfl⟩
    · have hslot : ((c.drop role).slot role').isBound → role' ≠ role := by
        rintro hb rfl
        rw [slot_drop, if_pos rfl] at hb
        cases hb
      have hne := hslot hb
      rw [slot_drop, if_neg hne] at hb
      refine mem_linesOf.mpr ⟨role', .tail _ hmem, hb, ?_⟩
      rw [line, line, slot_drop, if_neg hne]

/-- Every role that lets go leaves its line inactive. -/
theorem level_unbindAll (roles : List Role) :
    ∀ {c : Controller} {r : Rig}, r.Hosts c others → ∀ role ∈ roles, (c.slot role).isBound →
      (c.unbindAll roles r).2.chip.level? (c.line role) =
        some ((c.slot role).polarity.level false) := by
  induction roles with
  | nil => exact fun _ role hmem => absurd hmem List.not_mem_nil
  | cons first rest ih =>
    intro c r h role hmem hb
    have h' := hosts_unbind h first
    have hrest := sameOff_unbindAll rest h'.fitted (c.unbind first r).2
    simp only [unbindAll, fst_unbind]
    by_cases hrole : role = first
    · subst hrole
      rw [hrest.level, level_unbind h hb]
      intro hm
      obtain ⟨role', -, hb', he⟩ := mem_linesOf.mp hm
      rw [line, slot_drop] at he
      rw [slot_drop] at hb'
      split at hb'
      · cases hb'
      · next hne =>
        rw [if_neg hne] at he
        exact h.line_ne hb' hb hne he
    · have hslot : (c.drop first).slot role = c.slot role := by rw [slot_drop, if_neg hrole]
      have := ih h' role ((List.mem_cons.mp hmem).resolve_left hrole) (by rw [hslot]; exact hb)
      rwa [line, hslot] at this

/-- Every role that lets go leaves its line to everybody. -/
theorem isClaimed_unbindAll (roles : List Role) :
    ∀ {c : Controller} {r : Rig}, r.Hosts c others → ∀ role ∈ roles, (c.slot role).isBound →
      (c.unbindAll roles r).2.chip.isClaimed (c.line role) = false := by
  induction roles with
  | nil => exact fun _ role hmem => absurd hmem List.not_mem_nil
  | cons first rest ih =>
    intro c r h role hmem hb
    simp only [unbindAll]
    by_cases hrole : role = first
    · subst hrole
      exact not_isClaimed_unbindAll rest (isClaimed_unbind h hb)
    · have hslot : (c.drop first).slot role = c.slot role := by rw [slot_drop, if_neg hrole]
      have hrest := ih (hosts_unbind h first) role ((List.mem_cons.mp hmem).resolve_left hrole)
        (by rw [hslot]; exact hb)
      rw [fst_unbind]
      rwa [line, hslot] at hrest

theorem labels_unbindAll (h : r.Hosts c others) (hl : r.Labels c) (roles : List Role) :
    (c.unbindAll roles r).2.Labels (c.dropAll roles) := by
  intro hopen role hb
  have hoff := sameOff_unbindAll roles h.fitted r
  obtain ⟨hrole, hb⟩ := (isBound_dropAll c roles role).mp hb
  rw [line_dropAll, hoff.consumer _ (h.line_notMem_linesOf hrole hb)]
  exact hl (hoff.isOpen ▸ hopen) role hb

/-! ## Acquiring -/

theorem findSome?_congr {α β : Type} {f g : α → Option β} {l : List α}
    (h : ∀ a ∈ l, f a = g a) : l.findSome? f = l.findSome? g := by
  induction l with
  | nil => rfl
  | cons a rest ih =>
    rw [List.findSome?_cons, List.findSome?_cons, h a (.head _),
      ih fun b hb => h b (.tail _ hb)]

/-- The first role whose line cannot be had, and why. -/
theorem acquire_failure (pin : Role → Pin) (roles : List Role) :
    ∀ r : Rig, (roles.map fun role => (pin role).offset).Nodup →
      (acquire pin roles r).2.1 =
        roles.findSome? fun role => (r.chip.refusal? (pin role).offset).map fun e => (role, e) := by
  induction roles with
  | nil => exact fun _ _ => rfl
  | cons role rest ih =>
    intro r hnodup
    obtain ⟨hrole, hrest⟩ := List.nodup_cons.mp hnodup
    rw [List.findSome?_cons]
    cases href : r.chip.refusal? (pin role).offset with
    | some e =>
      unfold acquire
      rw [requestPin_refused _ href]
      rfl
    | none =>
      have hok := (requestPin_granted _ href).1
      have hoff := sameOff_requestPin (pin role) r
      unfold acquire
      rcases hq : requestPin (pin role) r with ⟨_ | o, r₁⟩ <;> rw [hq] at hok hoff
      · cases hok
      · simp only [ih r₁ hrest, Option.map_none]
        refine findSome?_congr fun role' hmem => ?_
        rw [hoff.refusal?]
        rw [List.mem_singleton]
        exact fun he => hrole (List.mem_map.mpr ⟨role', hmem, he⟩)

/-- What acquiring does to the chip: the lines that were had were free, they are claimed in the
controller's name, and nothing else changes. -/
structure Acquires (pin : Role → Pin) (r r' : Rig) (acquired : List (Role × Output)) : Prop where
  sameOff : Chip.SameOff (acquired.map fun a => (pin a.1).offset) r.chip r'.chip
  retains : Chip.Retains r.chip r'.chip
  free : ∀ a ∈ acquired, r.chip.isClaimed (pin a.1).offset = false
  labels : ∀ a ∈ acquired, r'.chip.consumer? (pin a.1).offset = some Wiring.consumer

theorem acquire_acquires (pin : Role → Pin) (roles : List Role) :
    ∀ r : Rig, Acquires pin r (acquire pin roles r).2.2 (acquire pin roles r).1 := by
  induction roles with
  | nil =>
    exact fun r => ⟨.refl .., .refl _, fun _ h => absurd h List.not_mem_nil,
      fun _ h => absurd h List.not_mem_nil⟩
  | cons role rest ih =>
    intro r
    cases href : r.chip.refusal? (pin role).offset with
    | some e =>
      unfold acquire
      rw [requestPin_refused _ href]
      exact ⟨.refl .., .refl _, fun _ h => absurd h List.not_mem_nil,
        fun _ h => absurd h List.not_mem_nil⟩
    | none =>
      obtain ⟨hok, hlabel⟩ := requestPin_granted _ href
      have hfree := ((Chip.refusal?_eq_none _ _).mp href).2.2
      have hoff := sameOff_requestPin (pin role) r
      have hret := retains_requestPin (pin role) r
      unfold acquire
      rcases hq : requestPin (pin role) r with ⟨_ | o, r₁⟩ <;> rw [hq] at hok hlabel hoff hret
      · cases hok
      · have h := ih r₁
        refine ⟨hoff.trans h.sameOff, hret.trans h.retains, fun a ha => ?_, fun a ha => ?_⟩
        · rcases List.mem_cons.mp ha with rfl | ha
          · exact hfree
          · exact hret.isClaimed_eq_false (h.free a ha)
        · rcases List.mem_cons.mp ha with rfl | ha
          · exact h.retains.of_consumer hlabel
          · exact h.labels a ha

/-! ## Settling -/

theorem chip_settle (target : Role → Offset) (acquired : List (Role × Output)) :
    ∀ (c : Controller) (r : Rig), (c.settle acquired target r).2.chip = r.chip := by
  induction acquired with
  | nil => exact fun _ _ => rfl
  | cons a rest ih => exact fun c r => ih ..

theorem slot_settle (out : Role → Output) (target : Role → Offset) (given : List Role) :
    ∀ (c : Controller) (r : Rig) (role : Role),
      (c.settle (given.map fun role => (role, out role)) target r).1.slot role =
        if role ∈ given then ⟨(c.slot role).polarity, target role, some (out role)⟩
        else c.slot role := by
  induction given with
  | nil => exact fun _ _ _ => rfl
  | cons first rest ih =>
    intro c r role
    simp only [List.map_cons, settle, ih, slot_modify, List.mem_cons]
    by_cases hrole : role = first
    · subst hrole
      simp
    · simp [hrole]

/-! ## Handing back -/

theorem sameOff_handBack (target : Role → Offset) (acquired : List (Role × Output)) :
    ∀ r : Rig, Chip.SameOff (acquired.map fun a => target a.1) r.chip
      (handBack acquired target r).chip := by
  induction acquired with
  | nil => exact fun _ => .refl ..
  | cons a rest ih => exact fun r => (Rig.sameOff_release r [target a.1]).trans (ih _)

/-! ## Restoring -/

theorem retains_restore (roles : List Role) :
    ∀ (c : Controller) (r : Rig), Chip.Retains r.chip (c.restore roles r).2.chip := by
  induction roles with
  | nil => exact fun _ _ => .refl _
  | cons role rest ih =>
    intro c r
    have h := retains_requestPin ⟨(c.slot role).offset, (c.slot role).polarity⟩ r
    unfold restore
    simp only
    rcases hq : requestPin ⟨(c.slot role).offset, (c.slot role).polarity⟩ r with ⟨_ | o, r₁⟩ <;>
      rw [hq] at h
    · exact h.trans (ih c (report .error _ r₁))
    · exact h.trans (ih (c.bind role o) (log .info _ r₁))

theorem labels_restore (roles : List Role) :
    ∀ {c : Controller} {r : Rig}, r.Labels c →
      (c.restore roles r).2.Labels (c.restore roles r).1 := by
  induction roles with
  | nil => exact fun h => h
  | cons role rest ih =>
    intro c r h
    cases href : r.chip.refusal? (c.slot role).offset with
    | some e =>
      unfold restore
      simp only [requestPin_refused ⟨_, (c.slot role).polarity⟩ href]
      exact ih (h.of_chip rfl)
    | none =>
      obtain ⟨hok, hlabel⟩ := requestPin_granted ⟨_, (c.slot role).polarity⟩ href
      have hoff := sameOff_requestPin ⟨(c.slot role).offset, (c.slot role).polarity⟩ r
      have hret := retains_requestPin ⟨(c.slot role).offset, (c.slot role).polarity⟩ r
      unfold restore
      simp only
      rcases hq : requestPin ⟨(c.slot role).offset, (c.slot role).polarity⟩ r with
        ⟨_ | o, r₁⟩ <;> rw [hq] at hok hlabel hoff hret
      · cases hok
      · refine ih (Rig.Labels.of_chip (r := r₁) (fun hopen role' hb => ?_) rfl)
        rw [line_bind]
        by_cases hrole : role' = role
        · rw [hrole]
          exact hlabel
        · rw [bind, slot_modify, if_neg hrole] at hb
          exact hret.of_consumer (h (hoff.isOpen ▸ hopen) role' hb)

theorem line_restore {σ : Type} [Board σ] (roles : List Role) (role : Role) :
    ∀ (c : Controller) (s : σ), (c.restore roles s).1.line role = c.line role := by
  induction roles with
  | nil => exact fun _ _ => rfl
  | cons first rest ih =>
    intro c s
    unfold restore
    simp only
    rcases requestPin ⟨(c.slot first).offset, (c.slot first).polarity⟩ s with ⟨_ | o, s₁⟩
    · exact ih ..
    · exact (ih ..).trans (line_bind ..)

theorem sameOff_restore (roles : List Role) :
    ∀ (c : Controller) (r : Rig),
      Chip.SameOff (roles.map c.line) r.chip (c.restore roles r).2.chip := by
  induction roles with
  | nil => exact fun _ _ => .refl ..
  | cons role rest ih =>
    intro c r
    have h := sameOff_requestPin ⟨c.line role, (c.slot role).polarity⟩ r
    unfold restore
    simp only
    rcases hq : requestPin ⟨(c.slot role).offset, (c.slot role).polarity⟩ r with ⟨_ | o, r₁⟩ <;>
      rw [line, hq] at h
    · exact h.trans (ih c (report .error _ r₁))
    · have hrest := ih (c.bind role o) (log .info
        s!"Hardware: {role.label} restored on line {(c.slot role).offset}" r₁)
      rw [funext fun role' => line_bind c role o role'] at hrest
      exact h.trans hrest

/-- Roles whose lines can be had are put back on them. -/
theorem restore_granted (roles : List Role) :
    ∀ {c : Controller} {r : Rig}, (roles.map c.line).Nodup →
      (∀ role ∈ roles, r.chip.refusal? (c.line role) = none) → ∀ role,
      (c.restore roles r).1.slot role =
        if role ∈ roles then { c.slot role with
          output := some (Pin.fresh ⟨c.line role, (c.slot role).polarity⟩) }
        else c.slot role := by
  induction roles with
  | nil => exact fun _ _ _ => rfl
  | cons first rest ih =>
    intro c r hnodup hfree role
    obtain ⟨hfirst, hrest⟩ := List.nodup_cons.mp hnodup
    obtain ⟨hok, -⟩ := requestPin_granted ⟨c.line first, (c.slot first).polarity⟩
      (hfree first (.head _))
    have hoff := sameOff_requestPin ⟨c.line first, (c.slot first).polarity⟩ r
    unfold restore
    simp only
    rcases hq : requestPin ⟨(c.slot first).offset, (c.slot first).polarity⟩ r with
      ⟨_ | o, r₁⟩ <;> rw [line, hq] at hok hoff
    · cases hok
    · have ho : o = Pin.fresh ⟨c.line first, (c.slot first).polarity⟩ := Except.ok.inj hok
      have hlines : rest.map (c.bind first o).line = rest.map c.line :=
        List.map_congr_left fun role _ => line_bind ..
      have hslots := ih (c := c.bind first o) (r := log .info
        s!"Hardware: {first.label} restored on line {(c.slot first).offset}" r₁)
        (hlines ▸ hrest) fun role' hmem => by
          rw [line_bind]
          refine (hoff.refusal? ?_).trans (hfree role' (.tail _ hmem))
          rw [List.mem_singleton]
          exact fun he => hfirst (List.mem_map.mpr ⟨role', hmem, he⟩)
      rw [hslots, line_bind]
      by_cases hrole : role = first
      · subst hrole
        rw [if_neg fun hmem => hfirst (List.mem_map_of_mem hmem), if_pos (.head _), bind,
          slot_modify, if_pos rfl, ho]
      · rw [bind, slot_modify, if_neg hrole]
        simp [hrole]

/-- Roles whose lines cannot be had stay unbound. -/
theorem restore_refused (roles : List Role) :
    ∀ {c : Controller} {r : Rig},
      (∀ role ∈ roles, r.chip.refusal? (c.line role) ≠ none) →
      (c.restore roles r).1 = c ∧ (c.restore roles r).2.chip = r.chip := by
  induction roles with
  | nil => exact fun _ => ⟨rfl, rfl⟩
  | cons role rest ih =>
    intro c r h
    obtain ⟨e, he⟩ := Option.ne_none_iff_exists'.mp (h role (.head _))
    unfold restore
    simp only [requestPin_refused ⟨_, (c.slot role).polarity⟩ he]
    exact ih fun role' hmem => h role' (.tail _ hmem)

end Controller

end Irrigation
