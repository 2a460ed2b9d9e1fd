import Irrigation.Proofs.Hardware.Phases

/-!
# What a move does

On an open chip a move succeeds exactly if nothing stands against the target of any role that
moves (`Controller.obstacle?`, `rebind_result`): each such line exists, and nobody else has it.
That is decided before the controller lets go of anything, so that the roles may trade lines.

What a successful move leaves behind is said slot by slot and line by line (`Controller.Moved`,
`moved_rebind`).
-/

namespace Irrigation

namespace Controller

variable {c : Controller} {role : Role} {r : Rig} {others : List Output}
  {wanted : Each (Option Offset)} {target : Each Offset}

/-! ## Which roles move, and what stands in their way -/

/-- A role moves if its target is not the line it has, or if it holds none. -/
def Moves (c : Controller) (target : Each Offset) (role : Role) : Prop :=
  target.get role ≠ c.line role ∨ (c.slot role).isBound = false

theorem mem_moving : role ∈ c.moving target ↔ c.Moves target role := by
  simp [moving, Moves, line]

theorem eq_line_of_not_moves (h : ¬ c.Moves target role) :
    target.get role = c.line role ∧ (c.slot role).isBound = true := by
  simpa [Moves] using h

theorem get_targets (c : Controller) (wanted : Each (Option Offset)) (role : Role) :
    (c.targets wanted).get role = (wanted.get role).getD (c.line role) := by
  cases role <;> rfl

/-- The targets of the two roles differ. -/
theorem get_ne (hne : target.valve ≠ target.pump) {role role' : Role} (h : role ≠ role') :
    target.get role ≠ target.get role' := by
  cases role <;> cases role'
  · exact absurd rfl h
  · exact hne
  · exact hne.symm
  · exact absurd rfl h

theorem nodup_targets (hne : target.valve ≠ target.pump) :
    ((c.moving target).map target.get).Nodup :=
  List.pairwise_map.mpr ((nodup_moving c target).imp fun h => get_ne hne h)

/-- What stands against a line for a controller: that it does not exist, or that somebody else
has it. -/
def obstacle? (c : Controller) (chip : Chip) (n : Offset) : Option LineError :=
  if !chip.hasLine n then some (.outOfRange n)
  else if chip.isClaimed n && !c.lines.contains n then some (.busy n)
  else none

theorem obstacle?_eq_none {chip : Chip} {n : Offset} :
    c.obstacle? chip n = none ↔ chip.hasLine n ∧ (chip.isClaimed n → n ∈ c.lines) := by
  unfold obstacle?
  cases chip.hasLine n <;> cases chip.isClaimed n <;> simp

/-- The first role that moves, valve before pump, against whose target something stands. -/
def refused? (c : Controller) (target : Each Offset) (chip : Chip) : Option LineError :=
  (c.moving target).findSome? fun role => c.obstacle? chip (target.get role)

theorem refused?_eq_none {chip : Chip} : c.refused? target chip = none ↔
    ∀ role, c.Moves target role → chip.hasLine (target.get role) ∧
      (chip.isClaimed (target.get role) → target.get role ∈ c.lines) := by
  simp only [refused?, List.findSome?_eq_none_iff, mem_moving, obstacle?_eq_none]

theorem refused?_ne_shared {chip : Chip} (t : Offset) :
    c.refused? target chip ≠ some (.shared t) := by
  intro h
  obtain ⟨role, -, hrole⟩ := List.exists_of_findSome?_eq_some h
  unfold obstacle? at hrole
  split at hrole
  · cases hrole
  · split at hrole <;> cases hrole

/-! ## The rig half-way -/

/-- The pin that a role is to have. -/
def destination (c : Controller) (target : Each Offset) (role : Role) : Pin :=
  ⟨target.get role, (c.slot role).polarity⟩

/-- The rig when the roles that move have let go. -/
def vacated (c : Controller) (target : Each Offset) (r : Rig) : Rig :=
  (c.unbindAll (c.moving target) r).2

/-- What the roles that move acquire then. -/
def bid (c : Controller) (target : Each Offset) (r : Rig) :
    List (Role × Output) × Option (Role × LineError) × Rig :=
  acquire (c.destination target) (c.moving target) (c.vacated target r)

theorem rebind_shared {σ : Type} [Board σ]
    (h : (c.targets wanted).valve = (c.targets wanted).pump) (s : σ) :
    c.rebind wanted s = (.error (.shared (c.targets wanted).valve), c, s) := by
  unfold rebind
  simp only
  rw [if_pos h]

/-- The pins that are asked for do not depend on what the roles hold. -/
theorem destination_dropAll (c : Controller) (roles : List Role) (target : Each Offset) :
    (fun role => (⟨target.get role, ((c.dropAll roles).slot role).polarity⟩ : Pin)) =
      c.destination target := by
  funext role
  rw [polarity_dropAll, destination]

/-- A move takes the lines that were acquired, or hands them back and restores what was. -/
theorem rebind_cases (hne : (c.targets wanted).valve ≠ (c.targets wanted).pump) (r : Rig) :
    ((c.bid (c.targets wanted) r).2.1 = none ∧ (c.rebind wanted r).1 = .ok () ∧
      (c.rebind wanted r).2.1 = ((c.dropAll (c.moving (c.targets wanted))).settle
        (c.bid (c.targets wanted) r).1 (c.targets wanted).get
          (c.bid (c.targets wanted) r).2.2).1 ∧
      (c.rebind wanted r).2.2.chip = (c.bid (c.targets wanted) r).2.2.chip) ∨
    ∃ role e r₂, (c.bid (c.targets wanted) r).2.1 = some (role, e) ∧
      (c.rebind wanted r).1 = .error e ∧
      (c.rebind wanted r).2 = (c.dropAll (c.moving (c.targets wanted))).restore
        (c.moving (c.targets wanted))
        (handBack (c.bid (c.targets wanted) r).1 (c.targets wanted).get r₂) ∧
      r₂.chip = (c.bid (c.targets wanted) r).2.2.chip ∧
      r₂.faults = (c.bid (c.targets wanted) r).2.2.faults := by
  unfold rebind bid vacated
  simp only
  rw [if_neg hne]
  split
  · next hnone =>
    rw [hnone]
    exact .inl ⟨rfl, rfl, rfl, rfl⟩
  · rw [fst_unbindAll, destination_dropAll]
    rcases acquire (c.destination (c.targets wanted)) (c.moving (c.targets wanted))
      (c.unbindAll (c.moving (c.targets wanted)) r).2 with ⟨acquired, _ | ⟨role, e⟩, r₂⟩
    · exact .inl ⟨rfl, rfl, rfl, chip_settle ..⟩
    · exact .inr ⟨role, e, log .warn
        s!"Hardware: cannot request line {(c.targets wanted).get role} for {role.label}: {
          e.message}" r₂, rfl, rfl, rfl, rfl, rfl⟩

theorem rebind_ok (hok : (c.rebind wanted r).1 = .ok ()) :
    (c.targets wanted).valve ≠ (c.targets wanted).pump ∧
      (c.bid (c.targets wanted) r).2.1 = none ∧
      (c.rebind wanted r).2.1 = ((c.dropAll (c.moving (c.targets wanted))).settle
        (c.bid (c.targets wanted) r).1 (c.targets wanted).get
          (c.bid (c.targets wanted) r).2.2).1 ∧
      (c.rebind wanted r).2.2.chip = (c.bid (c.targets wanted) r).2.2.chip := by
  by_cases heq : (c.targets wanted).valve = (c.targets wanted).pump
  · rw [rebind_shared heq] at hok
    cases hok
  · rcases rebind_cases heq r with ⟨hnone, -, hctrl, hchip⟩ | ⟨_, _, _, -, herr, -⟩
    · exact ⟨heq, hnone, hctrl, hchip⟩
    · rw [herr] at hok
      cases hok

theorem rebind_error {e : LineError} (hne : (c.targets wanted).valve ≠ (c.targets wanted).pump)
    (herr : (c.rebind wanted r).1 = .error e) :
    ∃ role r₂, (c.bid (c.targets wanted) r).2.1 = some (role, e) ∧
      (c.rebind wanted r).2 = (c.dropAll (c.moving (c.targets wanted))).restore
        (c.moving (c.targets wanted))
        (handBack (c.bid (c.targets wanted) r).1 (c.targets wanted).get r₂) ∧
      r₂.chip = (c.bid (c.targets wanted) r).2.2.chip ∧
      r₂.faults = (c.bid (c.targets wanted) r).2.2.faults := by
  rcases rebind_cases hne r with ⟨-, hok, -⟩ | ⟨role, e', r₂, hsome, herr', hrest⟩
  · rw [hok] at herr
    cases herr
  · obtain rfl : e' = e := by simpa [herr] using herr'.symm
    exact ⟨role, r₂, hsome, hrest⟩

theorem hosts_vacated (h : r.Hosts c others) (target : Each Offset) :
    (c.vacated target r).Hosts (c.dropAll (c.moving target)) others :=
  hosts_unbindAll _ h

theorem sameOff_vacated (h : r.Hosts c others) (target : Each Offset) :
    Chip.SameOff (c.linesOf (c.moving target)) r.chip (c.vacated target r).chip :=
  sameOff_unbindAll _ h.fitted r

/-- A role that stays is on its target, which no role that moves is to have. -/
theorem target_ne_line (hne : target.valve ≠ target.pump) (hm : c.Moves target role)
    {role' : Role} (hs : ¬ c.Moves target role') : target.get role ≠ c.line role' := by
  rw [← (eq_line_of_not_moves hs).1]
  exact get_ne hne fun he => hs (he ▸ hm)

theorem mem_lines_dropAll {n : Offset} : n ∈ (c.dropAll (c.moving target)).lines ↔
    ∃ role, ¬ c.Moves target role ∧ (c.slot role).isBound ∧ c.line role = n := by
  simp only [mem_lines, isBound_dropAll, line_dropAll, mem_moving, and_assoc]

/-- While a rig houses what is left when the roles that move have let go, nobody claims their
lines. -/
theorem isClaimed_given {r₃ : Rig} (h : r.Hosts c others)
    (h₃ : r₃.Hosts (c.dropAll (c.moving target)) others) (hopen : r₃.chip.isOpen)
    (hm : c.Moves target role) (hb : (c.slot role).isBound) :
    r₃.chip.isClaimed (c.line role) = false := by
  refine Bool.eq_false_iff.mpr fun hclaimed => ?_
  rcases (h₃.isClaimed hopen _).mp hclaimed with hline | hother
  · obtain ⟨role', hs, hb', he⟩ := mem_lines_dropAll.mp hline
    exact h.line_ne hb' hb (fun heq => hs (heq ▸ hm)) he
  · exact h.notMem_others (mem_lines.mpr ⟨role, hb, rfl⟩) hother

/-- When the roles that move have let go, the line that one of them is to have is claimed only
if somebody else has it. -/
theorem isClaimed_vacated (h : r.Hosts c others) (hopen : r.chip.isOpen)
    (hne : target.valve ≠ target.pump) (hm : c.Moves target role) :
    (c.vacated target r).chip.isClaimed (target.get role) ↔
      r.chip.isClaimed (target.get role) ∧ target.get role ∉ c.lines := by
  have hvac := hosts_vacated h target
  rw [hvac.isClaimed ((sameOff_vacated h target).isOpen ▸ hopen), h.isClaimed hopen]
  constructor
  · rintro (hline | hother)
    · obtain ⟨role', hs, -, he⟩ := mem_lines_dropAll.mp hline
      exact absurd he.symm (target_ne_line hne hm hs)
    · exact ⟨.inr hother, fun hline => h.notMem_others hline hother⟩
  · rintro ⟨hline | hother, hnot⟩
    · exact absurd hline hnot
    · exact .inr hother

theorem refusal?_vacated (h : r.Hosts c others) (hopen : r.chip.isOpen)
    (hne : target.valve ≠ target.pump) (hm : c.Moves target role) :
    (c.vacated target r).chip.refusal? (target.get role) =
      c.obstacle? r.chip (target.get role) := by
  have hoff := sameOff_vacated h target
  have hclaimed : (c.vacated target r).chip.isClaimed (target.get role) =
      (r.chip.isClaimed (target.get role) && !c.lines.contains (target.get role)) := by
    rw [Bool.eq_iff_iff, isClaimed_vacated h hopen hne hm]
    simp
  unfold Chip.refusal? obstacle?
  rw [hoff.isOpen, hoff.hasLine, hopen, hclaimed]
  rfl

/-- On an open chip the bid fails at the first role that is refused. -/
theorem bid_failure (h : r.Hosts c others) (hopen : r.chip.isOpen)
    (hne : target.valve ≠ target.pump) :
    (c.bid target r).2.1.map Prod.snd = c.refused? target r.chip := by
  rw [bid, acquire_failure _ _ _ (nodup_targets hne), List.map_findSome?, refused?]
  refine findSome?_congr fun role hmem => ?_
  rw [← refusal?_vacated h hopen hne (mem_moving.mp hmem)]
  exact (Option.map_map ..).trans (Option.map_id_apply ..)

/-- On a closed chip nothing is acquired. -/
theorem bid_closed (h : r.Hosts c others) (hclosed : r.chip.isOpen = false)
    (hmoving : c.moving target ≠ []) :
    ∃ role, c.bid target r = ([], some (role, .chipClosed), c.vacated target r) := by
  have hrefused : ∀ n, (c.vacated target r).chip.refusal? n = some .chipClosed := by
    intro n
    unfold Chip.refusal?
    rw [(sameOff_vacated h target).isOpen, hclosed]
    rfl
  unfold bid
  cases hroles : c.moving target with
  | nil => exact absurd hroles hmoving
  | cons role rest =>
    refine ⟨role, ?_⟩
    unfold acquire
    rw [requestPin_refused _ (hrefused _)]

/-- What is acquired are fresh outputs for the first of the roles that move, and for all of them
unless the bid fails. -/
theorem bid_spec (h : r.Hosts c others) (target : Each Offset) :
    ∃ given, given <+: c.moving target ∧
      (c.bid target r).1 = given.map (fun role => (role, (c.destination target role).fresh)) ∧
      ((c.bid target r).2.1 = none → given = c.moving target) ∧
      (c.bid target r).2.2.Serves (given.map (fun role => (c.destination target role).fresh) ++
        ((c.dropAll (c.moving target)).outputs ++ others)) :=
  acquire_spec _ _ (hosts_vacated h target).serves

theorem acquires_bid (c : Controller) (target : Each Offset) (r : Rig) :
    Acquires (c.destination target) (c.vacated target r) (c.bid target r).2.2
      (c.bid target r).1 :=
  acquire_acquires _ _ _

/-- Acquiring touches nothing but lines that roles are to move to. -/
theorem sameOff_bid (h : r.Hosts c others) (target : Each Offset) :
    Chip.SameOff ((c.moving target).map target.get) (c.vacated target r).chip
      (c.bid target r).2.2.chip := by
  obtain ⟨given, hgiven, hacq, -⟩ := bid_spec h target
  have hoff := (acquires_bid c target r).sameOff
  rw [hacq, List.map_map] at hoff
  exact hoff.mono (List.map_subset _ hgiven.subset)

/-- If the bid does not fail, the targets of the roles that move are claimed in the program's
name. -/
theorem consumer_bid (h : r.Hosts c others) (hnone : (c.bid target r).2.1 = none)
    (hm : c.Moves target role) :
    (c.bid target r).2.2.chip.consumer? (target.get role) = some Wiring.consumer := by
  obtain ⟨given, -, hacq, hall, -⟩ := bid_spec h target
  refine (acquires_bid c target r).labels (role, (c.destination target role).fresh) ?_
  rw [hacq, hall hnone]
  exact List.mem_map.mpr ⟨role, mem_moving.mpr hm, rfl⟩

/-- The rig when what was acquired in vain is handed back: claims are as they were when the roles
had let go, and nothing but lines of the targets has changed since. -/
structure Withdrawn (c : Controller) (target : Each Offset) (others : List Output) (r r₃ : Rig) :
    Prop where
  hosts : r₃.Hosts (c.dropAll (c.moving target)) others
  retains : Chip.Retains (c.vacated target r).chip r₃.chip
  sameOff : Chip.SameOff ((c.moving target).map target.get) (c.vacated target r).chip r₃.chip

theorem withdrawn_handBack (h : r.Hosts c others) (target : Each Offset) {r₂ : Rig}
    (hchip : r₂.chip = (c.bid target r).2.2.chip)
    (hfaults : r₂.faults = (c.bid target r).2.2.faults) :
    Withdrawn c target others r (handBack (c.bid target r).1 target.get r₂) := by
  obtain ⟨given, hgiven, hacq, -, hs⟩ := bid_spec h target
  have hback := sameOff_handBack target.get (c.bid target r).1 r₂
  rw [hchip] at hback
  refine ⟨⟨?_, (hosts_vacated h target).fitted⟩, ⟨fun n hn => ?_⟩, ?_⟩
  · rw [hacq]
    exact serves_handBack _ _ given (fun _ _ => rfl) (hs.of_eq hchip hfaults)
  · rw [hback.consumer n fun hm => ?_, (acquires_bid c target r).retains.consumer n hn]
    -- the lines that were acquired were free
    obtain ⟨a, ha, rfl⟩ := List.mem_map.mp hm
    exact Bool.eq_false_iff.mp ((acquires_bid c target r).free a ha) hn
  · refine ((sameOff_bid h target).trans hback).mono ?_
    rw [hacq, List.map_map]
    exact List.append_subset.mpr ⟨fun _ hn => hn, List.map_subset _ hgiven.subset⟩

/-! ## The result -/

/-- **When a move succeeds**: on an open chip it is refused for targets that coincide, and else
for what stands against the first role that moves and cannot have its target. -/
theorem rebind_result (h : r.Hosts c others) (hopen : r.chip.isOpen)
    (wanted : Each (Option Offset)) :
    (c.rebind wanted r).1 =
      if (c.targets wanted).valve = (c.targets wanted).pump then
        .error (.shared (c.targets wanted).valve)
      else match c.refused? (c.targets wanted) r.chip with
        | none => .ok ()
        | some e => .error e := by
  split
  · next heq => rw [rebind_shared heq]
  · next hne =>
    rw [← bid_failure h hopen hne]
    rcases rebind_cases hne r with ⟨hnone, hok, -⟩ | ⟨role, e, r₂, hsome, herr, -⟩
    · rw [hnone, hok]
      rfl
    · rw [hsome, herr]
      rfl

/-! ## A move that succeeds -/

/-- What a successful move leaves: the roles that moved hold their targets by inactive outputs,
the others what they held; the lines that were given up are free and inactive; and nothing has
changed on any other line. -/
structure Moved (c : Controller) (target : Each Offset) (r : Rig) (c' : Controller) (r' : Rig) :
    Prop where
  moves : ∀ role, c.Moves target role → c'.slot role =
    ⟨(c.slot role).polarity, target.get role, some (c.destination target role).fresh⟩
  stays : ∀ role, ¬ c.Moves target role → c'.slot role = c.slot role
  taken : ∀ role, c.Moves target role →
    r'.chip.level? (target.get role) = some ((c.slot role).polarity.level false) ∧
      r'.chip.consumer? (target.get role) = some Wiring.consumer
  given : ∀ role, c.Moves target role → (c.slot role).isBound →
    target.get role.other ≠ c.line role →
    r'.chip.level? (c.line role) = some ((c.slot role).polarity.level false) ∧
      r'.chip.consumer? (c.line role) = none
  kept : ∀ role, ¬ c.Moves target role →
    r'.chip.level? (c.line role) = r.chip.level? (c.line role) ∧
      r'.chip.consumer? (c.line role) = r.chip.consumer? (c.line role)
  elsewhere : Chip.SameOff ((c.moving target).map target.get ++ c.linesOf (c.moving target))
    r.chip r'.chip

/-- A role that stays holds a line that is neither given up nor taken. -/
theorem line_notMem (h : r.Hosts c others) (hne : target.valve ≠ target.pump)
    (hs : ¬ c.Moves target role) :
    c.line role ∉ c.linesOf (c.moving target) ∧ c.line role ∉ (c.moving target).map target.get := by
  refine ⟨h.line_notMem_linesOf (mt mem_moving.mp hs) (eq_line_of_not_moves hs).2, fun hm => ?_⟩
  obtain ⟨role', hmem, he⟩ := List.mem_map.mp hm
  exact target_ne_line hne (mem_moving.mp hmem) hs he

/-- The line that a role gives up is not taken again unless the other role is to have it. -/
theorem line_notMem_targets (hm : c.Moves target role) (hb : (c.slot role).isBound)
    (hfree : target.get role.other ≠ c.line role) :
    c.line role ∉ (c.moving target).map target.get := by
  intro hmem
  obtain ⟨role', -, he⟩ := List.mem_map.mp hmem
  have hself : target.get role ≠ c.line role := by
    rcases hm with hm | hm
    · exact hm
    · rw [hm] at hb
      cases hb
  cases role <;> cases role'
  · exact hself he
  · exact hfree he
  · exact hfree he
  · exact hself he

theorem slot_rebind (h : r.Hosts c others) (hok : (c.rebind wanted r).1 = .ok ()) (role : Role) :
    (c.rebind wanted r).2.1.slot role = if role ∈ c.moving (c.targets wanted) then
      ⟨(c.slot role).polarity, (c.targets wanted).get role,
        some (c.destination (c.targets wanted) role).fresh⟩
      else c.slot role := by
  obtain ⟨-, hnone, hctrl, -⟩ := rebind_ok hok
  obtain ⟨given, -, hacq, hall, -⟩ := bid_spec h (c.targets wanted)
  obtain rfl := hall hnone
  rw [hctrl, hacq, slot_settle (fun role => (c.destination (c.targets wanted) role).fresh),
    polarity_dropAll, slot_dropAll]
  split <;> rfl

/-- A move that succeeds puts each role where it is to be. -/
theorem line_rebind (h : r.Hosts c others) (hok : (c.rebind wanted r).1 = .ok ()) (role : Role) :
    (c.rebind wanted r).2.1.line role = (c.targets wanted).get role := by
  rw [line, slot_rebind h hok]
  split
  · rfl
  · next hstays => exact (eq_line_of_not_moves (mt mem_moving.mpr hstays)).1.symm

theorem moved_rebind (h : r.Hosts c others) (hopen : r.chip.isOpen)
    (hok : (c.rebind wanted r).1 = .ok ()) :
    c.Moved (c.targets wanted) r (c.rebind wanted r).2.1 (c.rebind wanted r).2.2 := by
  have hhosts := (hosts_rebind h wanted).1
  have hslots := slot_rebind h hok
  obtain ⟨hne, hnone, -, hchip⟩ := rebind_ok hok
  generalize (c.rebind wanted r).2.1 = c', (c.rebind wanted r).2.2 = r' at *
  generalize c.targets wanted = target at *
  have hvac := sameOff_vacated h target
  have hoff := sameOff_bid h target
  rw [← hchip] at hoff
  have hmoves : ∀ role, c.Moves target role → c'.slot role =
      ⟨(c.slot role).polarity, target.get role, some (c.destination target role).fresh⟩ :=
    fun role hm => by rw [hslots, if_pos (mem_moving.mpr hm)]
  have helsewhere := (hvac.trans hoff).mono fun n hn => List.mem_append.mpr
    (List.mem_append.mp hn).symm
  refine ⟨hmoves, fun role hs => by rw [hslots, if_neg (mt mem_moving.mp hs)],
    fun role hm => ⟨?_, ?_⟩, fun role hm hb hfree => ⟨?_, ?_⟩, fun role hs => ⟨?_, ?_⟩, helsewhere⟩
  · exact hhosts.serves.level (c.destination target role).fresh
      (List.mem_append_left _ (mem_outputs.mpr ⟨role, by rw [hmoves role hm]⟩)) rfl
  · rw [hchip]
    exact consumer_bid h hnone hm
  · rw [hoff.level _ (line_notMem_targets hm hb hfree)]
    exact level_unbindAll _ h role (mem_moving.mpr hm) hb
  · rw [hoff.consumer _ (line_notMem_targets hm hb hfree)]
    exact Chip.consumer?_eq_none
      (isClaimed_given h (hosts_vacated h target) (hvac.isOpen ▸ hopen) hm hb)
  · have hout := line_notMem h hne hs
    exact helsewhere.level _ fun hm => (List.mem_append.mp hm).elim hout.2 hout.1
  · have hout := line_notMem h hne hs
    exact helsewhere.consumer _ fun hm => (List.mem_append.mp hm).elim hout.2 hout.1

/-- After a successful move each role holds its target. -/
theorem holds_targets (h : r.Hosts c others) (hok : (c.rebind wanted r).1 = .ok ())
    (role : Role) : ∃ o, ((c.rebind wanted r).2.1.slot role).output = some o ∧
      o.offset = (c.targets wanted).get role ∧
      ((c.rebind wanted r).2.1.slot role).offset = (c.targets wanted).get role := by
  rw [slot_rebind h hok]
  split
  · exact ⟨_, rfl, rfl, rfl⟩
  · next hstays =>
    obtain ⟨hline, hb⟩ := eq_line_of_not_moves (mt mem_moving.mpr hstays)
    obtain ⟨o, ho⟩ := isBound_iff.mp hb
    exact ⟨o, ho, (h.fitted role o ho).1.trans hline.symm, hline.symm⟩

end Controller

end Irrigation
