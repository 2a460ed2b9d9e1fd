import Irrigation.Proofs.World.Job
import Mathlib.Data.List.Basic

/-!
# The trace and the journal

The trace of a world says no more than its journal: what the worker has done, by the journal, are
the deeds of the trace (`Reachable.workerDeeds_eq`), and the events of the job that were told, by
whomever, are those of the trace (`Reachable.events_eq`).
-/

namespace Irrigation

/-- The deeds of the worker. -/
def Rig.workerDeeds (r : Rig) : List Effect :=
  r.deeds.filterMap fun d => if d.1 = .worker then some d.2 else none

/-- The event that an entry tells. -/
def Effect.event? : Effect → Option Event
  | .emitted e => some e
  | _ => none

/-- The events of the job that were told. Notices are no deeds. -/
def Rig.events (r : Rig) : List Event := r.deeds.filterMap fun d => d.2.event?

/-- What a mark says that the worker has done. The begin of a job is told by the caller. -/
def Mark.workerDeed? : Mark → Option Effect
  | .told .started => none
  | m => m.deed?

/-- The event that a mark tells. -/
def Mark.event? : Mark → Option Event
  | .told e => some e
  | _ => none

namespace Watering

/-- The worker does not tell the begin of a job. -/
theorem workerDeed?_of_mem {s : Watering} {p : Point} {m : Mark} (h : m ∈ s.marksAt p) :
    m.workerDeed? = m.deed? := by
  have hne : m ≠ .told .started := by
    rintro rfl
    cases p <;> simp only [marksAt, entering] at h <;> (try split at h) <;> simp at h
  cases m with
  | told e => cases e <;> first | rfl | exact absurd rfl hne
  | _ => rfl

end Watering

theorem filterMap_deed?_event? (marks : List Mark) :
    (marks.filterMap Mark.deed?).filterMap Effect.event? = marks.filterMap Mark.event? := by
  rw [List.filterMap_filterMap]
  refine congrArg (fun f => List.filterMap f marks) (funext fun m => ?_)
  cases m with
  | call r on line => cases line <;> rfl
  | gaveUp r line => cases line <;> rfl
  | _ => rfl

namespace World

/-- The journal says of the job what the trace says. -/
structure Recorded (w : World) : Prop where
  worker : w.system.rig.workerDeeds = w.trace.filterMap Mark.workerDeed?
  events : w.system.rig.events = w.trace.filterMap Mark.event?

variable {w w' : World}

/-- The caller and third parties drive lines, and no more. -/
theorem Recorded.kept (h : w.Recorded) (hsteady : w.Steady)
    (hs : w.system.rig.Routine w'.system.rig) (ht : w'.trace = w.trace) : w'.Recorded := by
  obtain ⟨calls, hdeeds⟩ := hs.deeds
  rw [hsteady.actor] at hdeeds
  constructor
  · rw [Rig.workerDeeds, hdeeds, List.filterMap_append, ht, ← h.worker, List.filterMap_map]
    simp [Rig.workerDeeds]
  · rw [Rig.events, hdeeds, List.filterMap_append, ht, ← h.events, List.filterMap_map]
    simp [Rig.events, Function.comp_def, Effect.event?]

theorem Recorded.worked (h : w.Recorded) (hsteady : w.Steady) (hwork : w.system.isWorking)
    (hs : w'.system = w.system.step) (ht : w'.trace = w.trace ++ w.system.marks) :
    w'.Recorded := by
  obtain ⟨p, s', hp, -, hmarks, hstep, ha⟩ := hsteady.step hwork
  have hdeeds : w'.system.rig.deeds = w.system.rig.deeds ++
      (w.system.marks.filterMap Mark.deed?).map fun e => (Actor.worker, e) := by
    rw [hs, hstep, hmarks]
    exact ha.deeds
  constructor
  · rw [Rig.workerDeeds, hdeeds, List.filterMap_append, ht, List.filterMap_append, ← h.worker,
      List.filterMap_map]
    congr 1
    rw [hmarks, List.filterMap_filterMap]
    refine List.filterMap_congr fun m hm => ?_
    rw [Watering.workerDeed?_of_mem hm]
    cases m.deed? <;> rfl
  · rw [Rig.events, hdeeds, List.filterMap_append, ht, List.filterMap_append, ← h.events,
      List.filterMap_map, ← filterMap_deed?_event?]
    rfl

theorem Recorded.started (h : w.Recorded) (hsteady : w.Steady) {flow : Option String}
    (hrefusal : w.system.refusal? flow = none) (hs : w'.system = (w.system.start flow).2)
    (ht : w'.trace = w.trace ++ [.told .started]) : w'.Recorded := by
  have hdeeds : w'.system.rig.deeds =
      w.system.rig.deeds ++ [(.caller, .emitted .started)] := by
    rw [hs, (hsteady.start_eq hrefusal).2]
    simp [notify, Rig.deeds_record, Effect.isDeed, hsteady.actor]
  constructor
  · rw [Rig.workerDeeds, hdeeds, List.filterMap_append, ht, List.filterMap_append, ← h.worker]
    rfl
  · rw [Rig.events, hdeeds, List.filterMap_append, ht, List.filterMap_append, ← h.events]
    rfl

theorem Recorded.next (h : w.Recorded) (hsteady : w.Steady) {m : Move}
    (hm : w.next m = some w') : w'.Recorded := by
  cases next_turn hm with
  | worked hwork hs hc ht => exact h.worked hsteady hwork hs ht
  | started flow hfree hrefusal hs hc ht => exact h.started hsteady hrefusal hs ht
  | asked origin hfree hjob hs hc ht => exact h.kept hsteady (by rw [hs]; exact .log ..) ht
  | declined origin hfree hjob hs hc ht =>
    refine h.kept hsteady ?_ ht
    rw [hs, hsteady.declineStop_eq]
    simp only
    split
    · exact .report ..
    · exact .refl _
  | raised origin hraising hs hc ht => exact h.kept hsteady (by rw [hs]; exact .refl _) ht
  | joined origin hwaiting hover hs hc ht =>
    exact h.kept hsteady (by rw [hs, hsteady.concludeStop_eq]; exact .log ..) ht
  | kept hs hc ht => exact h.kept hsteady hs.routine ht

/-- Before the system is wired only lines are claimed. -/
theorem deeds_openChip (path : String) (lines : Nat) : (Rig.openChip path lines).deeds = [] := rfl

theorem Reachable.recorded (h : w.Reachable) : w.Recorded := by
  induction h with
  | @wired path lines pins timing enabled s before rig guests hbefore hwired =>
    obtain ⟨rig', hwire, hroutine, -, -⟩ := wire_eq_ok hwired
    have hguests := routine_guests before (Rig.openChip path lines) []
    have hw := Rig.routine_wire pins rig
    rw [hbefore] at hguests
    rw [hwire] at hw
    obtain ⟨calls, hdeeds⟩ := ((hguests.trans hw).trans hroutine).deeds
    rw [deeds_openChip, List.nil_append] at hdeeds
    constructor
    · rw [Rig.workerDeeds, hdeeds, List.filterMap_map]
      exact List.filterMap_eq_nil_iff.mpr fun _ _ => rfl
    · rw [Rig.events, hdeeds, List.filterMap_map]
      exact List.filterMap_eq_nil_iff.mpr fun _ _ => rfl
  | move hw hm ih => exact ih.next hw.steady hm

end World

end Irrigation
