import Irrigation.Project.Settings
import Irrigation.Proofs.World.Turns

/-!
# What a load does

A load reads what a section asks of each device (`Flow.wish?`), then moves both devices in one step,
and only if that succeeds sets flags and durations. So its result is decided by the section and by
that one move (`applyFlow_eq_rebind`, `loadFrom_eq`). Whatever else happens is said, not done: the
states in between differ in their journals only (`Watering.OnlySays`).
-/

namespace Irrigation

open Project

/-- A rig with more in its journal. -/
def Rig.noted (r : Rig) (entries : List (Actor × Effect)) : Rig :=
  { r with journal := r.journal ++ entries }

namespace Rig

variable (r : Rig) (entries : List (Actor × Effect))

theorem noted_nil : r.noted [] = r := by simp [noted]

theorem noted_noted (more : List (Actor × Effect)) :
    (r.noted entries).noted more = r.noted (entries ++ more) := by
  simp [noted]

end Rig

/-! ## What a section asks for -/

/-- What a flow asks of a role. -/
def Project.Flow.wish? (f : Flow) (r : Role) : Except ProjectError Wish :=
  match f.device? r with
  | none => .ok {}
  | some e => e.offset?.map fun offset => ⟨offset, some e.enabled⟩

/-- The flag that a role has when a wish is granted. -/
def Wish.flag (wish : Wish) (on : Bool) : Bool := wish.enabled.getD on

namespace Watering

variable {s s' s₁ s₂ : Watering} {f : Flow} {r : Role}

/-- Nothing was done but to write into the journal. -/
def OnlySays (s s' : Watering) : Prop := ∃ entries, s' = { s with rig := s.rig.noted entries }

namespace OnlySays

theorem refl (s : Watering) : s.OnlySays s := ⟨[], by rw [Rig.noted_nil]⟩

theorem trans (h₁ : s.OnlySays s₁) (h₂ : s₁.OnlySays s₂) : s.OnlySays s₂ := by
  obtain ⟨entries, rfl⟩ := h₁
  obtain ⟨more, rfl⟩ := h₂
  exact ⟨entries ++ more, by rw [Rig.noted_noted]⟩

theorem record (s : Watering) (e : Effect) : s.OnlySays (record s e) := ⟨[(s.rig.actor, e)], rfl⟩

theorem log (s : Watering) (l : Level) (text : String) : s.OnlySays (log l text s) :=
  .record s (.log l text)

theorem report (s : Watering) (l : Level) (text : String) : s.OnlySays (s.report l text) :=
  (OnlySays.log s l _).trans (.record _ _)

theorem chip (h : s.OnlySays s') : s'.rig.chip = s.rig.chip := by
  obtain ⟨_, rfl⟩ := h
  rfl

end OnlySays

theorem review_eq (f : Flow) (r : Role) (s : Watering) :
    ∃ s', s.OnlySays s' ∧ s.review f r = (f.wish? r, s') := by
  unfold review Flow.wish?
  cases f.device? r with
  | none => exact ⟨_, .report .., rfl⟩
  | some e =>
    refine ⟨_, ?_, rfl⟩
    split
    · exact .refl s
    · exact .report ..

/-- A flag is set as wished, and stays as it is without a wish. -/
theorem onlySays_grant (r : Role) (wish : Wish) (s : Watering) :
    OnlySays { s with enabled := s.enabled.set r (wish.flag (s.enabled.get r)) }
      (s.grant r wish) := by
  unfold grant Wish.flag
  cases wish.enabled with
  | none =>
    have hsame : s.enabled.set r (s.enabled.get r) = s.enabled := by cases r <;> rfl
    rw [Option.getD_none, hsame]
    exact .refl s
  | some on => exact .log ..

/-- The state after flags and durations are set. -/
def settled (s : Watering) (valve pump : Wish) (timing : Timing) : Watering :=
  { s with enabled := ⟨valve.flag s.enabled.valve, pump.flag s.enabled.pump⟩, timing }

theorem onlySays_settled (s : Watering) (valve pump : Wish) (timing : Timing) (l : Level)
    (text : String) : OnlySays (s.settled valve pump timing)
      (log l text { (s.grant .valve valve).grant .pump pump with timing }) := by
  obtain ⟨entries, hv⟩ := onlySays_grant .valve valve s
  obtain ⟨more, hp⟩ := onlySays_grant .pump pump (s.grant .valve valve)
  have hgranted : OnlySays (s.settled valve pump timing)
      { (s.grant .valve valve).grant .pump pump with timing } := by
    rw [hp, hv]
    exact ⟨entries ++ more, by rw [← Rig.noted_noted]; rfl⟩
  exact hgranted.trans (.log ..)

/-- **What a flow does** is decided by the one move of both devices. -/
theorem applyFlow_eq_rebind {valve pump : Wish} (hv : f.wish? .valve = .ok valve)
    (hp : f.wish? .pump = .ok pump) (s : Watering) :
    ∃ s₁ s₂ result, s.OnlySays s₁ ∧ s₁.rebind ⟨valve.offset, pump.offset⟩ = (result, s₂) ∧
      (∀ e, result = .error e → s.applyFlow f = (.error (.line e), s₂)) ∧
      (result = .ok () → ∃ s₃, OnlySays (s₂.settled valve pump f.timing) s₃ ∧
        s.applyFlow f = (.ok (), s₃)) := by
  obtain ⟨sv, hsv, hvalve⟩ := review_eq f .valve s
  obtain ⟨sp, hsp, hpump⟩ := review_eq f .pump sv
  rcases hmove : sp.rebind ⟨valve.offset, pump.offset⟩ with ⟨result, s₂⟩
  refine ⟨sp, s₂, result, hsv.trans hsp, hmove, ?_⟩
  unfold applyFlow
  rw [hvalve, hv]
  simp only [hpump, hp, hmove]
  cases result with
  | error e =>
    refine ⟨fun e' he => ?_, fun hok => (nomatch hok)⟩
    rw [Except.error.inj he]
  | ok _ => exact ⟨fun _ he => (nomatch he), fun _ => ⟨_, onlySays_settled .., rfl⟩⟩

/-- The move begins at once if the worker does not keep the lines. -/
theorem applyFlow_eq {valve pump : Wish} (hv : f.wish? .valve = .ok valve)
    (hp : f.wish? .pump = .ok pump) (hfree : s.linesHeld = false) :
    ∃ s₁, s.OnlySays s₁ ∧
      match s₁.hardware.rebind ⟨valve.offset, pump.offset⟩ s₁.rig with
      | (.error e, hardware, rig) => s.applyFlow f = (.error (.line e), { s₁ with hardware, rig })
      | (.ok (), hardware, rig) => ∃ s₂,
        OnlySays ({ s₁ with hardware, rig }.settled valve pump f.timing) s₂ ∧
          s.applyFlow f = (.ok (), s₂) := by
  obtain ⟨s₁, s₂, result, hsaid, hmove, hfailed, hdone⟩ := applyFlow_eq_rebind hv hp s
  have hfree₁ : s₁.linesHeld = false := by
    obtain ⟨_, rfl⟩ := hsaid
    exact hfree
  refine ⟨s₁, hsaid, ?_⟩
  rw [Watering.rebind, awaitLines_of_free hfree₁] at hmove
  rcases hq : s₁.hardware.rebind ⟨valve.offset, pump.offset⟩ s₁.rig with
    ⟨e | _, hardware, rig⟩ <;> rw [hq] at hmove <;> obtain ⟨rfl, rfl⟩ := Prod.mk.inj hmove
  · exact hfailed e rfl
  · exact hdone rfl

/-- A flow with a pin that is no line's number is refused, and changes nothing. -/
theorem applyFlow_refused {e : ProjectError} (s : Watering)
    (h : f.wish? .valve = .error e ∨
      (∃ valve, f.wish? .valve = .ok valve) ∧ f.wish? .pump = .error e) :
    ∃ s', s.OnlySays s' ∧ s.applyFlow f = (.error (.project e), s') := by
  obtain ⟨sv, hsv, hvalve⟩ := review_eq f .valve s
  rcases h with hv | ⟨⟨valve, hv⟩, hp⟩
  · refine ⟨sv, hsv, ?_⟩
    rw [applyFlow, hvalve, hv]
  · obtain ⟨sp, hsp, hpump⟩ := review_eq f .pump sv
    refine ⟨sp, hsv.trans hsp, ?_⟩
    rw [applyFlow, hvalve, hv]
    simp only [hpump, hp]

/-- A section that can be read is applied to a system that only said something before. -/
theorem loadFrom_eq {d : Project.Document} {v : Json.Value} {a : Section}
    (hd : d.section? sectionKey = some v) (ha : Section.ofValue v = .ok a)
    (hmode : a.mode = cycledFlow) (s : Watering) :
    ∃ s₀, s.OnlySays s₀ ∧ s.loadFrom d = s₀.applyFlow a.flow := by
  unfold loadFrom
  simp only [hd, ha, hmode, ne_eq, not_true_eq_false, if_false]
  split
  · exact ⟨_, .report .., rfl⟩
  · exact ⟨s, .refl s, rfl⟩

end Watering

end Irrigation
