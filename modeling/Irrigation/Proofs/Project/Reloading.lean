import Irrigation.Proofs.Project.Unbound

/-!
# Loading again

A system meets a flow (`Watering.Meets`) if all that the flow asks for is there already. Then no
role has to move, and a load of that flow does nothing but to say so (`Watering.Meets.load`), be
there water on the lines or not. A load that succeeds leaves a system that meets what was loaded
(`World.Reachable.meets`), and a system with both devices on their lines meets what it stores itself
(`Watering.meets_storedSettings`). So loading twice, and loading what has just been saved, change
nothing (`World.reloading_changes_nothing`).
-/

namespace Irrigation

open Project

namespace Controller

variable {σ : Type} [Board σ] {c : Controller} {wanted : Each (Option Offset)}

/-- Nothing moves if both roles hold the lines that are wanted for them. -/
theorem rebind_of_bound (hbound : ∀ role, (c.slot role).isBound)
    (hlines : ∀ role n, wanted.get role = some n → c.line role = n)
    (hapart : c.line .valve ≠ c.line .pump) (s : σ) :
    ∃ text, c.rebind wanted s = (.ok (), c, log .debug text s) := by
  have htarget : ∀ role, (c.targets wanted).get role = c.line role := by
    intro role
    rw [get_targets]
    cases hw : wanted.get role with
    | none => rfl
    | some n => exact (hlines role n hw).symm
  have hne : (c.targets wanted).valve ≠ (c.targets wanted).pump := fun heq =>
    hapart ((htarget .valve).symm.trans (heq.trans (htarget .pump)))
  have hmoving : c.moving (c.targets wanted) = [] := List.eq_nil_iff_forall_not_mem.mpr
    fun role hmem => (mem_moving.mp hmem).elim (fun h => h (htarget role)) fun h => by
      rw [hbound role] at h
      cases h
  unfold rebind
  simp only
  rw [if_neg hne, hmoving]
  exact ⟨_, rfl⟩

end Controller

/-- A flag that was set as wished stays so when the wish is granted again. -/
theorem Wish.flag_flag (wish : Wish) (on : Bool) : wish.flag (wish.flag on) = wish.flag on := by
  unfold Wish.flag
  cases wish.enabled <;> rfl

namespace Watering

variable {s s' : Watering} {f : Flow} {d : Document} {v : Json.Value} {a : Section} {role : Role}

/-! ## Systems that have what is asked for -/

/-- What is asked of a role is so already. -/
structure Grants (s : Watering) (role : Role) (wish : Wish) : Prop where
  line : ∀ n, wish.offset = some n → (s.hardware.slot role).offset = n
  flag : wish.flag (s.enabled.get role) = s.enabled.get role

/-- Both devices are bound, and what a flow asks of them is so already; and the durations are those
of the flow. -/
structure Meets (s : Watering) (f : Flow) : Prop where
  wish : ∀ role, ∃ wish, f.wish? role = .ok wish
  grants : ∀ role wish, f.wish? role = .ok wish → s.Grants role wish
  timing : s.timing = f.timing
  bound : ∀ role, (s.hardware.slot role).isBound
  apart : (s.hardware.slot .valve).offset ≠ (s.hardware.slot .pump).offset

/-- Whoever changes no flag, duration or binding does not change that. -/
theorem Meets.of_keeps (h : s.Meets f) (hkeeps : World.Keeps s s') : s'.Meets f := by
  have hbinding := hkeeps.bindings
  have hoffset : ∀ role, (s'.hardware.slot role).offset = (s.hardware.slot role).offset :=
    fun role => congrArg (fun b => b.2.1) (hbinding role)
  refine ⟨h.wish, fun role wish hwish => ⟨?_, ?_⟩, hkeeps.timing.trans h.timing,
    fun role => ?_, ?_⟩
  · rw [hoffset]
    exact (h.grants role wish hwish).line
  · rw [hkeeps.enabled]
    exact (h.grants role wish hwish).flag
  · have hheld := congrArg (fun b => b.2.2.isSome) (hbinding role)
    simp only [Slot.binding, Option.isSome_map] at hheld
    exact hheld.trans (h.bound role)
  · rw [hoffset, hoffset]
    exact h.apart

theorem OnlySays.keeps (h : s.OnlySays s') : World.Keeps s s' := by
  obtain ⟨_, rfl⟩ := h
  exact .of_hardware rfl rfl rfl

/-- Flags and durations that are as wished are not changed. -/
theorem settled_eq_self {valve pump : Wish} (hv : s.Grants .valve valve) (hp : s.Grants .pump pump)
    {timing : Timing} (ht : s.timing = timing) : s.settled valve pump timing = s := by
  have henabled : (⟨valve.flag s.enabled.valve, pump.flag s.enabled.pump⟩ : Each Bool) =
      s.enabled := congrArg₂ Each.mk hv.flag hp.flag
  rw [settled, henabled, ← ht]

/-- **A load that asks for nothing new changes nothing.** -/
theorem Meets.load (h : s.Meets a.flow) (hfree : s.linesHeld = false)
    (hd : d.section? sectionKey = some v) (ha : Section.ofValue v = .ok a)
    (hmode : a.mode = cycledFlow) :
    (s.loadFrom d).1 = .ok () ∧ s.OnlySays (s.loadFrom d).2 := by
  obtain ⟨valve, hvalve⟩ := h.wish .valve
  obtain ⟨pump, hpump⟩ := h.wish .pump
  obtain ⟨s₀, hsaid₀, hload⟩ := loadFrom_eq hd ha hmode s
  have hfree₀ : s₀.linesHeld = false := by
    obtain ⟨_, rfl⟩ := hsaid₀
    exact hfree
  obtain ⟨s₁, hsaid₁, happly⟩ := applyFlow_eq hvalve hpump hfree₀
  have hsaid := hsaid₀.trans hsaid₁
  have h₁ := h.of_keeps hsaid.keeps
  have hlines : ∀ role n,
      (⟨valve.offset, pump.offset⟩ : Each (Option Offset)).get role = some n →
        s₁.hardware.line role = n := by
    intro role n hn
    cases role
    · exact (h₁.grants .valve valve hvalve).line n hn
    · exact (h₁.grants .pump pump hpump).line n hn
  obtain ⟨text, hmove⟩ := Controller.rebind_of_bound h₁.bound hlines h₁.apart s₁.rig
  rw [hmove] at happly
  obtain ⟨s₂, hsaid₂, hdone⟩ := happly
  have hsaid' : s.OnlySays { s₁ with rig := log .debug text s₁.rig } :=
    hsaid.trans (.log s₁ .debug text)
  have h' := h.of_keeps hsaid'.keeps
  rw [settled_eq_self (h'.grants .valve valve hvalve) (h'.grants .pump pump hpump) h'.timing]
    at hsaid₂
  rw [hload, hdone]
  exact ⟨rfl, hsaid'.trans hsaid₂⟩

/-- A document without a section asks for nothing. -/
theorem loadFrom_absent (hd : d.section? sectionKey = none) (s : Watering) :
    (s.loadFrom d).1 = .ok () ∧ s.OnlySays (s.loadFrom d).2 := by
  rw [loadFrom, hd]
  exact ⟨rfl, .log ..⟩

theorem onlySays_saveTo (d : Document) (s : Watering) : s.OnlySays (s.saveTo d).2 :=
  ((onlySays_warnUnbound .valve s).trans (onlySays_warnUnbound .pump _)).trans (.log ..)

/-- A system whose devices hold lines meets what it stores. -/
theorem meets_storedSettings (hbound : ∀ role, (s.hardware.slot role).isBound)
    (hapart : (s.hardware.slot .valve).offset ≠ (s.hardware.slot .pump).offset) :
    s.Meets s.storedSettings.flow where
  wish := fun role => ⟨_, wish?_storedSettings (hbound role)⟩
  grants := by
    intro role wish hwish
    obtain rfl := Except.ok.inj ((wish?_storedSettings (hbound role)).symm.trans hwish)
    refine ⟨fun n hn => ?_, rfl⟩
    rw [ownWish] at hn
    split at hn
    · exact Option.some.inj hn
    · cases hn
  timing := rfl
  bound := hbound
  apart := hapart

/-! ## What follows -/

/-- What it means that a load which brings nothing new changes nothing. -/
structure Reloads (s : Watering) (d : Document) : Prop where
  /-- A document that was loaded is loaded once more without an effect. -/
  again : (s.loadFrom d).1 = .ok () →
    ((s.loadFrom d).2.loadFrom d).1 = .ok () ∧
      (s.loadFrom d).2.OnlySays ((s.loadFrom d).2.loadFrom d).2
  /-- So it is after whatever was done in between, as long as flags, durations and bindings stay and
  the worker does not keep the lines. -/
  later : (s.loadFrom d).1 = .ok () → ∀ s', World.Keeps (s.loadFrom d).2 s' →
    s'.linesHeld = false → (s'.loadFrom d).1 = .ok () ∧ s'.OnlySays (s'.loadFrom d).2
  /-- What was saved by a system that holds both its lines is loaded by it without an effect. -/
  saved : s.linesHeld = false → (∀ role, (s.hardware.slot role).isBound) →
    ((s.saveTo d).2.loadFrom (s.saveTo d).1).1 = .ok () ∧
      s.OnlySays ((s.saveTo d).2.loadFrom (s.saveTo d).1).2

end Watering

namespace World

open Watering

variable {w : World} {a : Section} {d : Document} {s₁ : Watering}

/-- **A load that succeeds leaves what it was to bring about.** -/
theorem Reachable.meets (h : w.Reachable) (hsound : a.Sound)
    (hok : (w.system.rebind a.flow.lines).1 = .ok ()) (hload : w.system.LoadsByMove d a s₁) :
    (w.system.loadFrom d).2.Meets a.flow ∧ (w.system.loadFrom d).2.linesHeld = false := by
  have hholds := fun role => h.rebind_holds hok role
  have hapart : ((w.system.rebind a.flow.lines).2.hardware.slot .valve).offset ≠
      ((w.system.rebind a.flow.lines).2.hardware.slot .pump).offset := by
    obtain ⟨w', hreach, hs, -⟩ := h.awaitLines
    obtain ⟨others, hhosts⟩ := hreach.orderly.hosts (c := w'.system.hardware) (.head _)
    rw [hs] at hhosts
    have hline := Controller.line_rebind hhosts hok
    exact fun heq => (Controller.rebind_ok hok).1
      ((hline .valve).symm.trans (heq.trans (hline .pump)))
  have hfree : (w.system.rebind a.flow.lines).2.linesHeld = false := h.steady.awaitLines
  obtain ⟨s₂, hsaid, hdone⟩ := hload.done hok
  obtain ⟨journal, rfl⟩ := hload.agrees
  obtain ⟨entries, rfl⟩ := hsaid
  rw [hdone]
  have hwish := fun role => Flow.wish?_eq_ok (hsound.pins role)
  refine ⟨⟨fun role => ⟨_, hwish role⟩, fun role wish hw => ?_, rfl, fun role => ?_, hapart⟩,
    hfree⟩
  · obtain rfl := Except.ok.inj ((hwish role).symm.trans hw)
    refine ⟨fun n hn => ?_, by cases role <;> exact Wish.flag_flag ..⟩
    obtain ⟨_, -, -, hoffset⟩ := hholds role
    rw [Flow.get_lines, show a.flow.line? role = some n from hn] at hoffset
    exact hoffset
  · obtain ⟨o, ho, -⟩ := hholds role
    exact Controller.isBound_iff.mpr ⟨o, ho⟩

/-- A load that succeeds had nothing to do, or it leaves what the document asks for. -/
theorem Reachable.loaded (h : w.Reachable) (hok : (w.system.loadFrom d).1 = .ok ()) :
    d.section? sectionKey = none ∨
    ∃ v a, d.section? sectionKey = some v ∧ Section.ofValue v = .ok a ∧ a.mode = cycledFlow ∧
      (w.system.loadFrom d).2.Meets a.flow ∧ (w.system.loadFrom d).2.linesHeld = false := by
  rcases loadFrom_cases d (by rw [h.steady.faults] : w.system.rig.faults.deadlyLine = none) with
    ⟨hd, -, -⟩ | ⟨-, -, -, ⟨e, herr⟩, -⟩ | ⟨v, a, s₁, hd, ha, hsound, hload⟩
  · exact .inl hd
  · rw [herr] at hok
    cases hok
  · cases hmove : (w.system.rebind a.flow.lines).1 with
    | error e =>
      rw [hload.failed e hmove] at hok
      cases hok
    | ok _ => exact .inr ⟨v, a, hd, ha, hsound.mode, h.meets hsound hmove hload⟩

/-- **Loading again changes nothing**, nor does loading what has just been saved. -/
theorem reloading_changes_nothing (h : w.Reachable) (d : Document) : w.system.Reloads d where
  again := by
    intro hok
    obtain hd | ⟨v, a, hd, ha, hmode, hmeets, hfree⟩ := h.loaded hok
    · exact loadFrom_absent hd _
    · exact hmeets.load hfree hd ha hmode
  later := by
    intro hok s' hkeeps hfree
    obtain hd | ⟨v, a, hd, ha, hmode, hmeets, -⟩ := h.loaded hok
    · exact loadFrom_absent hd s'
    · exact (hmeets.of_keeps hkeeps).load hfree hd ha hmode
  saved := by
    intro hfree hbound
    have hsaid := onlySays_saveTo d w.system
    have hfree' : (w.system.saveTo d).2.linesHeld = false := by
      obtain ⟨_, hs⟩ := hsaid
      rw [hs]
      exact hfree
    have hmeets := (meets_storedSettings hbound (h.apart hbound)).of_keeps hsaid.keeps
    have hload := hmeets.load hfree' (section?_saveTo d w.system)
      (Section.ofValue_sorted w.system.storedSettings) rfl
    exact ⟨hload.1, hsaid.trans hload.2⟩

/-! ### Loads in the middle of an irrigation -/

/-- The valve is open, and stays so while the settings are saved and loaded. The lines are traded by
a load, and not touched when that is done again. -/
theorem reloaded_with_valve_open : ∃ w : World,
    after ⟨⟨17, .activeHigh⟩, ⟨27, .activeLow⟩⟩ (.call (.start none) :: List.replicate 14 .work) =
      some w ∧
    w.system.rig.chip.level? 17 = some true ∧
    ((w.system.saveTo (.new "plot")).2.loadFrom (w.system.saveTo (.new "plot")).1).2.rig.chip =
      w.system.rig.chip ∧
    (w.system.loadFrom tradingDocument).1 = .ok () ∧
    ((w.system.loadFrom tradingDocument).2.loadFrom tradingDocument).1 = .ok () := by
  obtain ⟨w, hw, hfacts⟩ := (Option.any_eq_true
    (fun w : World => (w.system.rig.chip.level? 17 == some true) && !w.system.linesHeld &&
      Role.all.all (fun role => (w.system.hardware.slot role).isBound) &&
      (w.system.rebind tradingSection.flow.lines).1.toOption == some ()) _).mp
    (show Option.any _ (after ⟨⟨17, .activeHigh⟩, ⟨27, .activeLow⟩⟩
      (.call (.start none) :: List.replicate 14 .work)) = true by rfl)
  simp only [Bool.and_eq_true, beq_iff_eq, Bool.not_eq_true', List.all_eq_true] at hfacts
  obtain ⟨⟨⟨hlevel, hfree⟩, hbound⟩, hmoved⟩ := hfacts
  have hmove := eq_ok_of_toOption hmoved
  have hreach := reachable_of_after hw
  have hsaved := (reloading_changes_nothing hreach (.new "plot")).saved hfree
    fun role => hbound role (Role.mem_all role)
  obtain ⟨_, hload⟩ := loadsByMove (by rw [hreach.steady.faults]) section?_tradingDocument
    (Section.ofValue_sorted tradingSection) sound_tradingSection
  obtain ⟨s₂, -, hdone⟩ := hload.done hmove
  have hok : (w.system.loadFrom tradingDocument).1 = .ok () := by rw [hdone]
  exact ⟨w, hw, hlevel, hsaved.2.chip, hok,
    ((reloading_changes_nothing hreach tradingDocument).again hok).1⟩

end World

end Irrigation
