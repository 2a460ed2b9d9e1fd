import Irrigation.Proofs.World.Interleaving

/-!
# What a move can be

`next_turn` says once what a move of a world can do to the job (`World.Turn`): the worker takes a
step, a job is started, a stop goes through one of its parts, or the job stays as it is
(`Watering.SameJob`), whatever becomes of lines, flags and durations. Invariants of the job are
proved by cases on it.
-/

namespace Irrigation

namespace Watering

/-- From `s` to `s'` the job and its worker stay where they are. The iteration's controller may
be taken out of use, and the caller may drive lines. -/
structure SameJob (s s' : Watering) : Prop where
  point : s'.point? = s.point?
  stop : s'.stopPending = s.stopPending
  state : s'.state = s.state
  running : s'.running = s.running
  cycles : s'.cycles = s.cycles
  replaced : s'.replaced = s.replaced ∨ (s.hardwareInUse ∧ s'.replaced.isSome)
  routine : s.rig.Routine s'.rig

variable {s s' : Watering}

/-- The controllers, the flags, the durations and the rig may change. -/
theorem SameJob.of_run {rig : Rig} (h : s.rig.Routine rig) (hardware : Controller)
    (timing : Timing) (enabled : Each Bool) :
    s.SameJob { s with rig, hardware, timing, enabled } :=
  ⟨rfl, rfl, rfl, rfl, rfl, .inl rfl, h⟩

theorem SameJob.of_rig {rig : Rig} (h : s.rig.Routine rig) : s.SameJob { s with rig } :=
  .of_run h s.hardware s.timing s.enabled

theorem awaitLines_of_free (h : s.linesHeld = false) : s.awaitLines = s := by
  unfold awaitLines awaitWithin
  rw [if_neg (by rw [← linesHeld, h]; exact Bool.false_ne_true)]

theorem sameJob_rebind (h : s.linesHeld = false) (wanted : Each (Option Offset)) :
    s.SameJob (s.rebind wanted).2 := by
  unfold rebind
  rw [awaitLines_of_free h]
  exact .of_run (Rig.routine_rebind s.hardware wanted s.rig) ..

theorem sameJob_replaceTiming (t : Timing) : s.SameJob (s.replaceTiming t) := by
  unfold replaceTiming
  split
  · refine ⟨?_, ?_, rfl, rfl, rfl, .inl ?_, .log ..⟩
    · simp only [log, record, point?, Option.map_map, Function.comp_def]
    · simp only [log, record, stopPending, Option.map_map, Function.comp_def]
    · simp only [log, record, replaced, Option.bind_map, Function.comp_def]
  · exact .of_run (.log ..) ..

theorem sameJob_replaceHardware (c : Controller)
    (h : s.hardwareInUse = true ∨ s.linesHeld = false) : s.SameJob (s.replaceHardware c) := by
  unfold replaceHardware
  split
  · next huse =>
    refine ⟨?_, ?_, rfl, rfl, rfl, .inr ⟨huse, ?_⟩, .log ..⟩
    · simp only [log, record, point?, Option.map_map, Function.comp_def]
    · simp only [log, record, stopPending, Option.map_map, Function.comp_def]
    · obtain ⟨w, hw⟩ : ∃ w, s.run = some w := by
        cases hrun : s.run with
        | none => simp [hardwareInUse, hrun] at huse
        | some w => exact ⟨w, rfl⟩
      simp only [log, record, replaced, hw]
      rfl
  · next huse =>
    rw [awaitLines_of_free (h.resolve_left huse)]
    exact .of_run ((Rig.routine_unbindAll Role.all s.hardware s.rig).trans (.log ..)) ..

theorem iterationHardware_eq (s : Watering) : s.iterationHardware = s.replaced.getD s.hardware :=
  rfl

/-- A controller that is replaced while an iteration uses it stays the iteration's. -/
theorem replaceHardware_of_use (huse : s.hardwareInUse = true) (c : Controller) :
    (s.replaceHardware c).hardware = c ∧ (s.replaceHardware c).replaced = some s.hardware ∧
      (s.replaceHardware c).point? = s.point? ∧ (s.replaceHardware c).rig.chip = s.rig.chip ∧
      (s.replaceHardware c).rig.faults = s.rig.faults ∧ s.replaced = none := by
  obtain ⟨worker, hrun⟩ : ∃ worker, s.run = some worker := by
    cases hrun : s.run with
    | none => simp [hardwareInUse, hrun] at huse
    | some worker => exact ⟨worker, rfl⟩
  rw [replaceHardware, if_pos huse]
  refine ⟨rfl, ?_, ?_, rfl, rfl, ?_⟩
  · simp only [log, record, replaced, hrun]
    rfl
  · simp only [log, record, point?, hrun]
    rfl
  · rw [hardwareInUse, hrun, Bool.and_eq_true, Option.isNone_iff_eq_none] at huse
    rw [replaced, hrun]
    exact huse.2

/-- Third parties do not touch the job. -/
theorem routine_guest (g : GuestMove) (r : Rig) (held : List Output) :
    r.Routine (g.apply (r, held)).1 := by
  cases g with
  | request who n d p =>
    have h := Rig.routine_request r who n d p
    simp only [GuestMove.apply]
    rcases hq : r.request who n d p with ⟨_ | o, r'⟩ <;> rw [hq] at h <;> exact h
  | drive i on =>
    simp only [GuestMove.apply]
    cases held[i]? with
    | none => exact .refl r
    | some o => exact Rig.routine_drive o on r
  | release offsets =>
    have h := Rig.routine_release r offsets
    simp only [GuestMove.apply]
    split
    · rcases hq : r.release offsets with ⟨_ | _, r'⟩ <;> rw [hq] at h <;> exact h
    · exact .refl r

end Watering

/-- Whether a call neither starts nor stops a job. -/
def Call.isAside : Call → Bool
  | .start _ => false
  | .askStop _ => false
  | _ => true

namespace World

/-- What a move does to the job. -/
inductive Turn (w w' : World) : Prop
  /-- The worker takes a step. -/
  | worked (hwork : w.system.isWorking) (hs : w'.system = w.system.step)
      (hc : w'.caller = w.caller) (ht : w'.trace = w.trace ++ w.system.marks)
  /-- A job is started. -/
  | started (flow : Option String) (hfree : w.caller = .free)
      (hrefusal : w.system.refusal? flow = none) (hs : w'.system = (w.system.start flow).2)
      (hc : w'.caller = .free) (ht : w'.trace = w.trace ++ [.told .started])
  /-- The caller finds a job to stop. -/
  | asked (origin : StopOrigin) (hfree : w.caller = .free) (hjob : w.system.hasJob)
      (hs : w'.system = w.system.announceStop origin) (hc : w'.caller = .raising origin)
      (ht : w'.trace = w.trace)
  /-- The caller finds no job to stop. -/
  | declined (origin : StopOrigin) (hfree : w.caller = .free) (hjob : w.system.hasJob = false)
      (hs : w'.system = w.system.declineStop origin) (hc : w'.caller = .free)
      (ht : w'.trace = w.trace)
  /-- The caller raises the signal. -/
  | raised (origin : StopOrigin) (hraising : w.caller = .raising origin)
      (hs : w'.system = w.system.raiseStop) (hc : w'.caller = .waiting origin)
      (ht : w'.trace = w.trace)
  /-- The caller takes leave of the worker. -/
  | joined (origin : StopOrigin) (hwaiting : w.caller = .waiting origin)
      (hover : w.system.isWorking = false) (hs : w'.system = w.system.concludeStop origin)
      (hc : w'.caller = .free) (ht : w'.trace = w.trace)
  /-- The job stays as it is. -/
  | kept (hs : w.system.SameJob w'.system) (hc : w'.caller = w.caller) (ht : w'.trace = w.trace)

variable {w w' : World}

/-- A start is refused with a message, or it starts a job. -/
theorem call_start {flow : Option String} (h : w.call (.start flow) = some w') :
    (∃ reason, w.system.refusal? flow = some reason ∧
      w.system.start flow = (false, w.system.report .warn reason) ∧
      w' = { w with system := w.system.report .warn reason }) ∨
    (w.system.refusal? flow = none ∧ (w.system.start flow).1 = true ∧
      w' = { w with
        system := (w.system.start flow).2, trace := w.trace ++ [.told .started] }) := by
  simp only [call, Option.some.injEq] at h
  cases hr : w.system.refusal? flow with
  | none =>
    have haccepted : (w.system.start flow).1 = true := by rw [Watering.start, hr]
    rw [if_pos haccepted] at h
    exact .inr ⟨rfl, haccepted, h.symm⟩
  | some reason =>
    have hstart : w.system.start flow = (false, w.system.report .warn reason) := by
      rw [Watering.start, hr]
    rw [hstart] at h
    exact .inl ⟨reason, rfl, hstart, h.symm⟩

/-- Such a call leaves the job as it is. -/
theorem call_aside {c : Call} (haside : c.isAside = true) (h : w.call c = some w') :
    w.system.SameJob w'.system ∧ w'.caller = w.caller ∧ w'.trace = w.trace := by
  cases c with
  | start flow => cases haside
  | askStop origin => cases haside
  | enable role on =>
    obtain rfl := Option.some.inj h
    exact ⟨.of_run (.log ..) .., rfl, rfl⟩
  | setDuration i ms =>
    obtain rfl := Option.some.inj h
    exact ⟨.of_run (.refl _) .., rfl, rfl⟩
  | replaceTiming t =>
    obtain rfl := Option.some.inj h
    exact ⟨Watering.sameJob_replaceTiming t, rfl, rfl⟩
  | rebind wanted =>
    obtain ⟨hlines, rfl⟩ := call_rebind h
    exact ⟨Watering.sameJob_rebind hlines wanted, rfl, rfl⟩
  | build pins =>
    have hroutine := Rig.routine_wire pins w.system.rig
    simp only [call] at h
    rcases hwire : Controller.wire pins w.system.rig with ⟨e | c, rig⟩ <;>
      rw [hwire] at h hroutine <;> obtain rfl := Option.some.inj h <;>
      exact ⟨.of_rig hroutine, rfl, rfl⟩
  | install i =>
    obtain ⟨c, -, hwait, rfl⟩ := call_install h
    exact ⟨Watering.sameJob_replaceHardware c hwait, rfl, rfl⟩
  | discard i =>
    obtain ⟨c, -, rfl⟩ := call_discard h
    exact ⟨.of_rig (Rig.routine_unbindAll Role.all c w.system.rig), rfl, rfl⟩
  | closeChip =>
    obtain rfl := Option.some.inj h
    exact ⟨.of_rig (.of_deeds_eq rfl rfl (Rig.log_deeds ..)), rfl, rfl⟩
  | say e =>
    obtain ⟨hdeed, rfl⟩ := call_say h
    refine ⟨.of_rig (.of_deeds_eq rfl rfl ?_), rfl, rfl⟩
    rw [Rig.deeds_record, hdeed]
    exact List.append_nil _

theorem call_turn {c : Call} (hfree : w.caller = .free) (h : w.call c = some w') : Turn w w' := by
  cases haside : c.isAside with
  | true =>
    obtain ⟨hs, hc, ht⟩ := call_aside haside h
    exact .kept hs hc ht
  | false =>
    cases c with
    | start flow =>
      obtain ⟨reason, -, -, rfl⟩ | ⟨hrefusal, -, rfl⟩ := call_start h
      · exact .kept (.of_rig (.report ..)) rfl rfl
      · exact .started flow hfree hrefusal rfl hfree rfl
    | askStop origin =>
      obtain ⟨hjob, rfl⟩ | ⟨hjob, rfl⟩ := call_askStop h
      · exact .asked origin hfree hjob rfl rfl rfl
      · exact .declined origin hfree hjob rfl hfree rfl
    | _ => cases haside

/-- **Every move is one of these.** -/
theorem next_turn {m : Move} (h : w.next m = some w') : Turn w w' := by
  cases m with
  | work =>
    obtain ⟨hwork, rfl⟩ := next_work h
    exact .worked hwork rfl rfl rfl
  | call c =>
    obtain ⟨hfree, hc⟩ := next_call h
    exact call_turn hfree hc
  | raiseStop =>
    obtain ⟨origin, hraising, rfl⟩ := next_raiseStop h
    exact .raised origin hraising rfl rfl rfl
  | joinWorker =>
    obtain ⟨origin, hwaiting, hover, rfl⟩ := next_joinWorker h
    exact .joined origin hwaiting hover rfl rfl rfl
  | guest g =>
    obtain rfl := Option.some.inj h
    exact .kept (.of_rig (Watering.routine_guest g ..)) rfl rfl

end World

end Irrigation
