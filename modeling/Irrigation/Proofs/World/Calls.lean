import Irrigation.Proofs.World.Stopping
import Irrigation.Service

/-!
# Whole operations

An operation of the system or of the service takes a caller several moves: single calls, records
and notices, and steps of the worker while the caller waits for the lines or for the end of a job.
`World.Performs` says of an operation of the system that it is made of moves of some kind in any
steady world, and `World.Acts` says it of the service. So are loads of settings
(`performs_loadFrom`), watering commands (`acts_handle`, `acts_handleAll`), projects (`acts_adopt`,
`acts_storeSettings`) and the two ways to stop everything (`acts_abort`, `acts_shutdown`), and what
they leave is a reachable world again (`Reachable.done`).

Every kind of moves has to let the caller write records and wait (`Move.Attends`). What an operation
needs besides are its own calls; a watering command needs one, `WateringCommand.call`.
-/

namespace Irrigation

open Project

/-- A kind of moves that lets the caller write records and wait: for the lines, and for the end of a
job. -/
structure Move.Attends (A : Move → Prop) : Prop where
  work : A .work
  say : ∀ e, A (.call (.say e))
  raiseStop : A .raiseStop
  joinWorker : A .joinWorker

/-- The call by which a watering command is carried out, its number brought into range. -/
def WateringCommand.call (limits : Limits) : WateringCommand → Call
  | .start flow => .start flow
  | .stop => .askStop .shutdown
  | .setDuration i ms => .setDuration i (.ofNat (clamp limits.maxDurationMs.toNat ms))
  | .setLine r line =>
    .rebind ((Each.both none).set r (some (.ofNat (clamp limits.maxPinOffset.toNat line))))
  | .enable r on => .enable r on

namespace World

variable {w w' : World} {s s' : Watering} {A : Move → Prop} {limits : Limits}

/-- A caller who is free again has brought the system to `s`, by moves of some kind. -/
def Does (A : Move → Prop) (w : World) (s : Watering) : Prop :=
  ∃ (moves : List Move) (w' : World), (∀ m ∈ moves, A m) ∧ World.run moves w = some w' ∧
    w'.Steady ∧ w'.caller = .free ∧ w'.system = s

/-- An operation of the system is made of moves of some kind. -/
structure Performs (A : Move → Prop) (f : Watering → Watering) : Prop where
  does : ∀ {w : World}, w.Steady → w.caller = .free → w.Does A (f w.system)

/-! ## One operation after the other -/

theorem Does.rest (h : w.Steady) (hfree : w.caller = .free) : w.Does A w.system :=
  ⟨[], w, fun _ hm => absurd hm List.not_mem_nil, rfl, h, hfree, rfl⟩

theorem Does.andThen (h : w.Does A s)
    (hnext : ∀ w' : World, w'.Steady → w'.caller = .free → w'.system = s → w'.Does A s') :
    w.Does A s' := by
  obtain ⟨moves, w₁, hmoves, hrun, hsteady, hfree, hs⟩ := h
  obtain ⟨more, w₂, hallowed, hmore, hw₂⟩ := hnext w₁ hsteady hfree hs
  refine ⟨moves ++ more, w₂, List.forall_mem_append.mpr ⟨hmoves, hallowed⟩, ?_, hw₂⟩
  rw [run_append, hrun]
  exact hmore

/-- A single call. -/
theorem Does.call (h : w.Steady) (hfree : w.caller = .free) {c : Call} (hA : A (.call c))
    (hc : w.call c = some w') (hfree' : w'.caller = .free) : w.Does A w'.system := by
  have hnext : w.next (.call c) = some w' := by rw [World.next, hfree]; exact hc
  refine ⟨[.call c], w', List.forall_mem_singleton.mpr hA, ?_, h.next hnext, hfree', rfl⟩
  rw [World.run, hnext]
  rfl

theorem Performs.comp {f g : Watering → Watering} (hf : Performs A f) (hg : Performs A g) :
    Performs A fun s => g (f s) where
  does h hfree := by
    refine (hf.does h hfree).andThen fun w' h' hfree' hs => ?_
    simp only [← hs]
    exact hg.does h' hfree'

theorem performs_id : Performs A fun s => s := ⟨.rest⟩

theorem Performs.choice {f g : Watering → Watering} (test : Watering → Bool) (hf : Performs A f)
    (hg : Performs A g) : Performs A fun s => if test s then f s else g s where
  does h hfree := by
    split
    · exact hf.does h hfree
    · exact hg.does h hfree

/-! ## Single calls -/

theorem performs_enable {r : Role} {on : Bool} (hc : A (.call (.enable r on))) :
    Performs A (·.enable r on) :=
  ⟨fun h hfree => .call h hfree hc rfl hfree⟩

theorem performs_setDuration {i : Interval} {ms : UInt64} (hc : A (.call (.setDuration i ms))) :
    Performs A (·.setDuration i ms) :=
  ⟨fun h hfree => .call h hfree hc rfl hfree⟩

theorem performs_start {flow : Option String} (hc : A (.call (.start flow))) :
    Performs A fun s => (s.start flow).2 :=
  ⟨fun h hfree => .call h hfree hc rfl hfree⟩

/-- All three durations, one after the other. -/
theorem performs_timing (hc : ∀ i ms, A (.call (.setDuration i ms))) (t : Timing) :
    Performs A fun s => { s with timing := t } :=
  ((performs_setDuration (hc .activation t.activation)).comp
    (performs_setDuration (hc .deactivation t.deactivation))).comp
      (performs_setDuration (hc .separation t.separation))

/-- While somebody waits for the lines, the worker makes its moves. -/
theorem run_awaitWithin (n : Nat) : ∀ w : World, ∃ k w',
    World.run (List.replicate k .work) w = some w' ∧ w'.caller = w.caller ∧
      w'.system = w.system.awaitWithin n := by
  induction n with
  | zero => exact fun w => ⟨0, w, rfl, rfl, rfl⟩
  | succ n ih =>
    intro w
    rw [Watering.awaitWithin]
    split
    · next hheld =>
      have hwork : w.next .work = some w.worked := if_pos (isWorking_of_linesHeld hheld)
      obtain ⟨k, w', hrun, hw'⟩ := ih w.worked
      refine ⟨k + 1, w', ?_, hw'⟩
      change (w.next .work).bind _ = _
      rw [hwork]
      exact hrun
    · exact ⟨0, w, rfl, rfl, rfl⟩

section

variable (hA : Move.Attends A)
include hA

theorem performs_record {e : Effect} (he : e.isDeed = false) : Performs A (record · e) where
  does h hfree :=
    .call h hfree (hA.say e) (if_neg (by rw [he]; exact Bool.false_ne_true)) hfree

theorem performs_log (l : Level) (text : String) : Performs A (log l text) :=
  performs_record hA rfl

theorem performs_report (subsystem : String) (l : Level) (message : String) :
    Performs A (Irrigation.report subsystem l message) :=
  (performs_log hA ..).comp (performs_record hA rfl)

/-! ## Calls that wait -/

/-- The caller waits until the worker lets go of the lines. -/
theorem performs_awaitWithin (n : Nat) : Performs A (Watering.awaitWithin n) := by
  refine ⟨fun {w} h hfree => ?_⟩
  obtain ⟨k, w', hrun, hc, hs⟩ := run_awaitWithin n w
  exact ⟨_, w', fun m hm => List.eq_of_mem_replicate hm ▸ hA.work, hrun, h.run hrun,
    hc.trans hfree, hs⟩

theorem performs_awaitLines : Performs A Watering.awaitLines := performs_awaitWithin hA 8

theorem performs_rebind {wanted : Each (Option Offset)} (hc : A (.call (.rebind wanted))) :
    Performs A fun s => (s.rebind wanted).2 where
  does h hfree := by
    refine ((performs_awaitLines hA).does h hfree).andThen fun w' h' hfree' hs => ?_
    have hlines : w'.system.linesHeld = false := by
      rw [hs]
      exact h.awaitLines
    simp only [awaitLines_rebind h.awaitLines wanted, ← hs]
    exact .call h' hfree' hc (if_neg (by rw [hlines]; exact Bool.false_ne_true)) hfree'

theorem performs_stop {origin : StopOrigin} (hc : A (.call (.askStop origin))) :
    Performs A (·.stop origin) := by
  refine ⟨fun {w} h hfree => ?_⟩
  cases hjob : w.system.hasJob with
  | true =>
    obtain ⟨n, w', -, hrun, hfree', hs⟩ := h.stop_returns hfree hjob origin
    refine ⟨_, w', fun m hm => ?_, hrun, h.run hrun, hfree', hs⟩
    rw [List.mem_cons, List.mem_cons, List.mem_append, List.mem_singleton] at hm
    obtain rfl | rfl | hm | rfl := hm
    · exact hc
    · exact hA.raiseStop
    · exact List.eq_of_mem_replicate hm ▸ hA.work
    · exact hA.joinWorker
  | false =>
    have hstop := (h.stop_declined hfree hjob origin).2.1
    exact ⟨[.call (.askStop origin)], _, List.forall_mem_singleton.mpr hc,
      by rw [World.run, hstop]; rfl, h.next hstop, hfree, rfl⟩

/-! ## Loading settings -/

theorem performs_review (f : Flow) (r : Role) : Performs A fun s => (s.review f r).2 := by
  refine ⟨fun {w} h hfree => ?_⟩
  rw [Watering.review]
  cases f.device? r with
  | none => exact (performs_report hA ..).does h hfree
  | some e =>
    simp only
    split
    · exact .rest h hfree
    · exact (performs_report hA ..).does h hfree

theorem performs_warnUnbound (r : Role) : Performs A (·.warnUnbound r) :=
  .choice (fun s => s.enabled.get r && !(s.hardware.slot r).isBound) (performs_report hA ..)
    performs_id

theorem performs_saveTo (d : Document) : Performs A fun s => (s.saveTo d).2 :=
  ((performs_warnUnbound hA .valve).comp (performs_warnUnbound hA .pump)).comp
    (performs_log hA ..)

variable (hcalls : ∀ c, A (.call c))
include hcalls

omit hA in
theorem performs_grant (r : Role) (wish : Wish) : Performs A (·.grant r wish) := by
  unfold Watering.grant
  cases wish.enabled with
  | none => exact performs_id
  | some on => exact performs_enable (hcalls _)

theorem performs_applyFlow (f : Flow) : Performs A fun s => (s.applyFlow f).2 := by
  refine ⟨fun {w} h hfree => ?_⟩
  have hvalve := (performs_review hA f .valve).does h hfree
  rw [Watering.applyFlow]
  rcases hq : w.system.review f .valve with ⟨e | valve, s₁⟩ <;> simp only [hq] at hvalve
  · exact hvalve
  refine hvalve.andThen fun w₁ h₁ hfree₁ hs₁ => ?_
  have hpump := (performs_review hA f .pump).does h₁ hfree₁
  simp only [hs₁] at hpump ⊢
  rcases hq : s₁.review f .pump with ⟨e | pump, s₂⟩ <;> simp only [hq] at hpump ⊢
  · exact hpump
  refine hpump.andThen fun w₂ h₂ hfree₂ hs₂ => ?_
  have hmove := (performs_rebind hA (hcalls (.rebind ⟨valve.offset, pump.offset⟩))).does h₂ hfree₂
  simp only [hs₂] at hmove
  rcases hq : s₂.rebind ⟨valve.offset, pump.offset⟩ with ⟨e | _, s₃⟩ <;> simp only [hq] at hmove ⊢
  · exact hmove
  refine hmove.andThen fun w₃ h₃ hfree₃ hs₃ => ?_
  have hrest := (((performs_grant hcalls .valve valve).comp
    (performs_grant hcalls .pump pump)).comp
      (performs_timing (fun _ _ => hcalls _) f.timing)).comp
        (performs_log hA .info "Project: automatic watering settings loaded")
  have hdone := hrest.does h₃ hfree₃
  simp only [hs₃] at hdone
  exact hdone

/-- **A load of settings is made of moves**, whether it succeeds or fails. -/
theorem performs_loadFrom (d : Document) : Performs A fun s => (s.loadFrom d).2 := by
  refine ⟨fun {w} h hfree => ?_⟩
  rw [Watering.loadFrom]
  cases d.section? sectionKey with
  | none => exact (performs_log hA ..).does h hfree
  | some stored =>
    simp only
    cases Section.ofValue stored with
    | error e => exact .rest h hfree
    | ok settings =>
      simp only
      split
      · exact .rest h hfree
      · exact ((Performs.choice (fun s => s.running) (performs_report hA ..) performs_id).comp
          (performs_applyFlow hA hcalls settings.flow)).does h hfree

end

/-! ## The service -/

/-- What an operation of a service with these limits does to its system is made of moves of some
kind, and the limits stay. -/
structure Acts (A : Move → Prop) (limits : Limits) (f : Service → Service) : Prop where
  does : ∀ {w : World} {sv : Service}, w.Steady → w.caller = .free → sv.system = w.system →
    sv.limits = limits → w.Does A (f sv).system
  keeps : ∀ sv, (f sv).limits = sv.limits

theorem Acts.comp {f g : Service → Service} (hf : Acts A limits f) (hg : Acts A limits g) :
    Acts A limits fun sv => g (f sv) where
  does h hfree hsv hl :=
    (hf.does h hfree hsv hl).andThen fun _ h' hfree' hs =>
      hg.does h' hfree' hs.symm ((hf.keeps _).trans hl)
  keeps sv := (hg.keeps _).trans (hf.keeps sv)

theorem acts_onSystem {f : Watering → Watering} (hf : Performs A f) :
    Acts A limits (·.onSystem f) where
  does h hfree hsv _ := by
    rw [Service.onSystem, hsv]
    exact hf.does h hfree
  keeps _ := rfl

section

variable (hA : Move.Attends A)
include hA

theorem acts_log (l : Level) (text : String) : Acts A limits (log l text) :=
  ⟨(acts_onSystem (performs_log hA l text)).does, fun _ => rfl⟩

theorem acts_report (l : Level) (message : String) : Acts A limits (·.report l message) :=
  ⟨(acts_onSystem (performs_report hA "Service" l message)).does, fun _ => rfl⟩

omit hA in
theorem limits_clampReported (what : String) (value : Int) (max : Nat) (sv : Service) :
    (sv.clampReported what value max).2.limits = sv.limits := by
  rw [Service.clampReported]
  simp only
  split <;> rfl

theorem acts_clampReported (what : String) (value : Int) (max : Nat) :
    Acts A limits fun sv => (sv.clampReported what value max).2 where
  does h hfree hsv hl := by
    rw [Service.clampReported]
    simp only
    split
    · rw [hsv]
      exact .rest h hfree
    · exact (acts_report hA ..).does h hfree hsv hl
  keeps := limits_clampReported what value max

theorem acts_setDuration {i : Interval} {ms : Int}
    (hc : A (.call ((WateringCommand.setDuration i ms).call limits))) :
    Acts A limits (·.setDuration i ms) where
  does {w sv} h hfree hsv hl := by
    rw [Service.setDuration, hl]
    refine ((acts_clampReported hA i.label ms limits.maxDurationMs.toNat).does h hfree hsv
      hl).andThen fun w' h' hfree' hs => ?_
    exact ((acts_onSystem (performs_setDuration hc)).comp (acts_log hA ..)).does h' hfree' hs.symm
      ((limits_clampReported ..).trans hl)
  keeps sv := limits_clampReported i.label ms sv.limits.maxDurationMs.toNat sv

theorem acts_setLine {r : Role} {line : Int}
    (hc : A (.call ((WateringCommand.setLine r line).call limits))) :
    Acts A limits fun sv => (sv.setLine r line).2 where
  does {w sv} h hfree hsv hl := by
    refine ((acts_clampReported hA r.label line limits.maxPinOffset.toNat).does h hfree hsv
      hl).andThen fun w' h' hfree' hs => ?_
    rw [Service.setLine, hl]
    have hmove := (performs_rebind hA hc).does h' hfree'
    have hl' := (limits_clampReported r.label line limits.maxPinOffset.toNat sv).trans hl
    rcases hq : sv.clampReported r.label line limits.maxPinOffset.toNat with ⟨offset, sv'⟩
    obtain rfl : clamp limits.maxPinOffset.toNat line = offset := congrArg Prod.fst hq
    simp only [hs, hq, Watering.move] at hmove hl' ⊢
    generalize (Each.both none).set r (some _) = wanted at hmove ⊢
    rcases hq : sv'.system.rebind wanted with ⟨e | _, s'⟩ <;> simp only [hq] at hmove ⊢
    · exact hmove.andThen fun w₁ h₁ hfree₁ hs₁ => (acts_report hA ..).does h₁ hfree₁ hs₁.symm hl'
    · exact hmove
  keeps sv := by
    have hkeeps := limits_clampReported r.label line sv.limits.maxPinOffset.toNat sv
    rw [Service.setLine]
    simp only
    split <;> exact hkeeps

/-- **A watering command is made of records, one call, and what it takes to wait.** -/
theorem acts_handle {c : WateringCommand} (hc : A (.call (c.call limits))) :
    Acts A limits fun sv => (sv.handle c).2 := by
  cases c with
  | start flow => exact acts_onSystem (performs_start hc)
  | stop => exact acts_onSystem (performs_stop hA hc)
  | setDuration i ms => exact acts_setDuration hA hc
  | setLine r line => exact acts_setLine hA hc
  | enable r on => exact acts_onSystem (performs_enable hc)

/-- **So are several**, also where one of them fails. -/
theorem acts_handleAll {cs : List WateringCommand} (hc : ∀ c ∈ cs, A (.call (c.call limits))) :
    Acts A limits fun sv => (sv.handleAll cs).2 := by
  induction cs with
  | nil =>
    refine ⟨fun h hfree hsv _ => ?_, fun _ => rfl⟩
    rw [Service.handleAll, hsv]
    exact .rest h hfree
  | cons c rest ih =>
    rw [List.forall_mem_cons] at hc
    have hone := acts_handle hA hc.1
    refine ⟨fun {w sv} h hfree hsv hl => ?_, fun sv => ?_⟩
    · have hfirst := hone.does h hfree hsv hl
      have hl' := (hone.keeps sv).trans hl
      rw [Service.handleAll]
      rcases hq : sv.handle c with ⟨e | _, sv'⟩ <;> simp only [hq] at hfirst hl' ⊢
      · exact hfirst
      · exact hfirst.andThen fun w' h' hfree' hs => (ih hc.2).does h' hfree' hs.symm hl'
    · have hl' := hone.keeps sv
      rw [Service.handleAll]
      rcases hq : sv.handle c with ⟨e | _, sv'⟩ <;> simp only [hq] at hl' ⊢
      · exact hl'
      · exact ((ih hc.2).keeps sv').trans hl'

theorem acts_abort (hc : A (.call (.askStop .emergencyAbort))) : Acts A limits (·.abort) :=
  ((acts_report hA ..).comp (acts_onSystem (performs_stop hA hc))).comp (acts_report hA ..)

theorem acts_shutdown (hc : A (.call (.askStop .shutdown))) : Acts A limits (·.shutdown) :=
  (acts_log hA ..).comp (acts_onSystem (performs_stop hA hc))

theorem acts_adopt (hcalls : ∀ c, A (.call c)) (d : Document) :
    Acts A limits fun sv => (sv.adopt d).2 := by
  refine ⟨fun {w sv} h hfree hsv _ => ?_, fun sv => ?_⟩
  · have hload := (performs_loadFrom hA hcalls d).does h hfree
    rw [Service.adopt, hsv]
    rcases hq : w.system.loadFrom d with ⟨e | _, s⟩ <;> simp only [hq] at hload ⊢
    · exact hload
    · refine hload.andThen fun w' h' hfree' hs => ?_
      rw [← hs]
      exact (performs_log hA ..).does h' hfree'
  · rw [Service.adopt]
    split <;> rfl

theorem acts_storeSettings : Acts A limits fun sv => sv.storeSettings.2 where
  does {_ sv} h hfree hsv _ := by
    have hsaved := (performs_saveTo hA (sv.project.getD (.new unknownTitle))).does h hfree
    rw [← hsv] at hsaved
    exact hsaved
  keeps _ := rfl

end

/-- **What an operation leaves is a reachable world again.** -/
theorem Reachable.done (h : w.Reachable) (hs : w.Does A s) :
    ∃ w' : World, w'.Reachable ∧ w'.caller = .free ∧ w'.system = s := by
  obtain ⟨moves, w', -, hrun, -, hfree, hsystem⟩ := hs
  exact ⟨w', h.run moves hrun, hfree, hsystem⟩

end World

end Irrigation
