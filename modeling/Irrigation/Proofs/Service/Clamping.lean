import Irrigation.Proofs.Exchange.Holding
import Irrigation.Proofs.Project.AllOrNothing

/-!
# Numbers brought into range

A command that carries a number brings it into its range, says so if that changes the number, and
then does one thing: it sets a duration, or it moves a device. `Service.setDuration_eq` and
`Service.setLine_eq` say all that becomes of the service, the entries of the journal included.

A duration that was set is read back by the status at once, and by the worker as long as nobody sets
it again (`World.ReadsBack`). An iteration whose durations were replaced goes on with those until it
ends, whatever becomes of the ones in force (`Reachable.rested`).
-/

namespace Irrigation

/-! ## The numbers -/

theorem clamp_eq (max : Nat) (value : Int) :
    (clamp max value : Int) = Max.max 0 (Min.min value max) := by
  simp only [clamp]
  omega

/-- A duration in the range of a limit fits in 64 bits. -/
theorem toNat_clamp_duration (max : UInt64) (value : Int) :
    (UInt64.ofNat (clamp max.toNat value)).toNat = clamp max.toNat value :=
  UInt64.toNat_ofNat_of_lt (Nat.lt_of_le_of_lt (clamp_le ..) max.toNat_lt_size)

/-- A line in the range of a limit is an offset. -/
theorem toNat_clamp_line (max : Offset) (value : Int) :
    (UInt32.ofNat (clamp max.toNat value)).toNat = clamp max.toNat value :=
  UInt32.toNat_ofNat_of_lt (Nat.lt_of_le_of_lt (clamp_le ..) max.toNat_lt_size)

theorem clamp_eq_iff {max : Nat} {value : Int} :
    value = clamp max value ↔ 0 ≤ value ∧ value ≤ max := by
  rw [clamp_eq]
  omega

/-! ## What a command says -/

/-- The system with more in its journal, written by the one who acts. -/
def Watering.noting (entries : List Effect) (s : Watering) : Watering :=
  { s with rig := s.rig.noted (entries.map fun e => (s.rig.actor, e)) }

namespace Watering

variable (s : Watering)

theorem noting_nil : s.noting [] = s := by
  rw [noting, List.map_nil, Rig.noted_nil]

theorem noting_noting (entries more : List Effect) :
    (s.noting entries).noting more = s.noting (entries ++ more) := by
  simp only [noting, Rig.noted_noted, List.map_append]
  rfl

/-- What was journaled before does not matter for a move. -/
theorem rebind_noting (hsafe : s.rig.faults.deadlyLine = none) (entries : List Effect)
    (wanted : Each (Option Offset)) : ∃ moved,
    (s.rebind wanted).2.rig.journal = s.rig.journal ++ moved ∧
      (s.noting entries).rebind wanted = ((s.rebind wanted).1,
        World.rejournal (s.rebind wanted).2
          (s.rig.journal ++ entries.map (fun e => (s.rig.actor, e)) ++ moved)) := by
  let bare := World.rejournal s []
  have hmove : ∀ journal, (World.rejournal s journal).rebind wanted =
      (bare.rebind wanted).map id (prefixed journal) := by
    intro journal
    rw [← rebind_prefixed journal (s := bare) hsafe wanted]
    exact congrArg (fun journal => (World.rejournal s journal).rebind wanted)
      (List.append_nil journal).symm
  have hs : s.rebind wanted = (bare.rebind wanted).map id (prefixed s.rig.journal) := hmove _
  refine ⟨(bare.rebind wanted).2.rig.journal, ?_, ?_⟩
  · rw [hs]
    rfl
  · rw [hs]
    exact hmove _

end Watering

/-- Whether an entry is a notice for the operator. -/
def Effect.isNotice : Effect → Bool
  | .emitted (.notice ..) => true
  | _ => false

namespace Service

open Watering

variable {sv : Service}

/-- What a message of the service leaves in the journal: a record, and one notice. -/
def message (level : Level) (text : String) : List Effect :=
  [.log level ("Service: " ++ text), .emitted (.notice level text)]

/-- What is said of a number that is to be brought into range: nothing, if it is there already. -/
def rangeWarning (what : String) (value : Int) (max : Nat) : List Effect :=
  if 0 ≤ value ∧ value ≤ max then []
  else message .warn s!"{what} {value} out of range [0, {max}], using {clamp max value}"

/-- What is said of a move: nothing, unless it failed. -/
def moveFailure (r : Role) (line : Nat) : Except LineError Unit → List Effect
  | .ok () => []
  | .error e => message .error s!"cannot move the {r.label} to line {line}: {e.message}"

theorem countP_rangeWarning (what : String) (value : Int) (max : Nat) :
    (rangeWarning what value max).countP Effect.isNotice =
      if 0 ≤ value ∧ value ≤ max then 0 else 1 := by
  unfold rangeWarning
  split <;> rfl

theorem countP_moveFailure (r : Role) (line : Nat) (result : Except LineError Unit) :
    (moveFailure r line result).countP Effect.isNotice = if result = .ok () then 0 else 1 := by
  cases result <;> rfl

theorem report_eq (sv : Service) (level : Level) (text : String) :
    sv.report level text = { sv with system := sv.system.noting (message level text) } :=
  congrArg (fun system => { sv with system }) (noting_noting sv.system
    [.log level ("Service: " ++ text)] [.emitted (.notice level text)])

theorem clampReported_eq (sv : Service) (what : String) (value : Int) (max : Nat) :
    sv.clampReported what value max =
      (clamp max value, { sv with system := sv.system.noting (rangeWarning what value max) }) := by
  unfold clampReported rangeWarning
  by_cases hrange : 0 ≤ value ∧ value ≤ max
  · rw [if_pos hrange, noting_nil]
    simp only [if_pos (clamp_eq_iff.mpr hrange)]
  · rw [if_neg hrange, ← report_eq]
    simp only [if_neg (clamp_eq_iff.not.mpr hrange)]

theorem setDuration_eq_noting (sv : Service) (i : Interval) (value : Int) :
    sv.setDuration i value = { sv with
      system := ((sv.system.noting
        (rangeWarning i.label value sv.limits.maxDurationMs.toNat)).setDuration i
          (.ofNat (clamp sv.limits.maxDurationMs.toNat value))).noting
            [.log .info
              s!"Service: {i.label} set to {clamp sv.limits.maxDurationMs.toNat value} ms"] } := by
  rw [setDuration, clampReported_eq]
  rfl

/-- **All that setting a duration does.** -/
theorem setDuration_eq (sv : Service) (i : Interval) (value : Int) :
    sv.setDuration i value = { sv with
      system := (sv.system.setDuration i
        (.ofNat (clamp sv.limits.maxDurationMs.toNat value))).noting
        (rangeWarning i.label value sv.limits.maxDurationMs.toNat ++ [.log .info
          s!"Service: {i.label} set to {clamp sv.limits.maxDurationMs.toNat value} ms"]) } := by
  rw [setDuration_eq_noting, ← noting_noting]
  rfl

/-- The system with what is said of a number that is to be brought into the range of a line. -/
def warned (sv : Service) (r : Role) (value : Int) : Watering :=
  sv.system.noting (rangeWarning r.label value sv.limits.maxPinOffset.toNat)

theorem setLine_eq_noting (sv : Service) (r : Role) (value : Int) {line : Nat}
    (hline : clamp sv.limits.maxPinOffset.toNat value = line) :
    sv.setLine r value = (((sv.warned r value).move r (.ofNat line)).1.mapError .line, { sv with
      system := ((sv.warned r value).move r (.ofNat line)).2.noting
        (moveFailure r line ((sv.warned r value).move r (.ofNat line)).1) }) := by
  rw [setLine, clampReported_eq, hline, warned]
  simp only
  rcases (sv.system.noting (rangeWarning r.label value sv.limits.maxPinOffset.toNat)).move r
    (.ofNat line) with ⟨e | _, s⟩
  · exact congrArg (Prod.mk _) (report_eq ..)
  · rw [moveFailure, noting_nil]
    rfl

/-- **All that moving a device does.** The system is left as the move alone leaves it, and more is
said: first of the number, and in the end of the move. -/
theorem setLine_eq (hsafe : sv.system.rig.faults.deadlyLine = none) (r : Role) (value : Int)
    {line : Nat} (hline : clamp sv.limits.maxPinOffset.toNat value = line) :
    ∃ moved, (sv.system.move r (.ofNat line)).2.rig.journal = sv.system.rig.journal ++ moved ∧
      sv.setLine r value = ((sv.system.move r (.ofNat line)).1.mapError .line, { sv with
        system := (World.rejournal (sv.system.move r (.ofNat line)).2 (sv.system.rig.journal ++
          (rangeWarning r.label value sv.limits.maxPinOffset.toNat).map
            (fun e => (sv.system.rig.actor, e)) ++ moved)).noting
              (moveFailure r line (sv.system.move r (.ofNat line)).1) }) := by
  obtain ⟨moved, hmoved, hmove⟩ := sv.system.rebind_noting hsafe
    (rangeWarning r.label value sv.limits.maxPinOffset.toNat)
    ((Each.both none).set r (some (.ofNat line)))
  refine ⟨moved, hmoved, ?_⟩
  change (sv.warned r value).move r (.ofNat line) = _ at hmove
  rw [setLine_eq_noting sv r value hline, hmove]
  rfl

end Service

/-! ## What is read back -/

/-- A duration as the status shows it. -/
def Status.duration (t : Status) : Interval → Nat
  | .activation => t.activation
  | .deactivation => t.deactivation
  | .separation => t.separation

theorem Watering.status_duration (s : Watering) (i : Interval) :
    s.status.duration i = (s.timing.get i).toNat := by
  cases i <;> rfl

/-- Whether a move leaves a duration to itself. -/
def Move.spares (i : Interval) : Move → Bool
  | .call (.setDuration j _) => j != i
  | .call (.replaceTiming _) => false
  | _ => true

namespace World

variable {w w' : World} {i : Interval}

/-- Durations that were replaced are kept until the iteration that uses them is over. -/
def Rested (w : World) : Prop :=
  ∀ p, w.system.point? = some p → p.inIteration = false → w.system.ownTiming = none

/-- A move has left the durations in force to themselves, and an iteration keeps those that were
replaced, or the worker has forgotten them. -/
structure KeepsTime (w w' : World) : Prop where
  timing : w'.system.timing = w.system.timing
  own : w'.system.ownTiming = none ∨ (w'.system.ownTiming = w.system.ownTiming ∧
    (w'.system.point? = w.system.point? ∨ ∃ p, w'.system.point? = some p ∧ p.inIteration = true))

theorem KeepsTime.of_run (ht : w'.system.timing = w.system.timing)
    (hrun : w'.system.run = w.system.run) : w.KeepsTime w' := by
  refine ⟨ht, .inr ⟨?_, .inl ?_⟩⟩
  · rw [Watering.ownTiming, Watering.ownTiming, hrun]
  · rw [Watering.point?, Watering.point?, hrun]

theorem KeepsTime.rested (h : w.KeepsTime w') (hw : w.Rested) : w'.Rested := by
  intro p hp hout
  obtain hnone | ⟨hown, hsame | ⟨q, hq, hin⟩⟩ := h.own
  · exact hnone
  · rw [hown]
    exact hw p (hsame.symm.trans hp) hout
  · cases hp.symm.trans hq
    cases hin.symm.trans hout

/-- **What a move does to durations.** -/
theorem Steady.keepsTime (h : w.Steady) (hw : w.Rested) {m : Move} (hm : w.next m = some w') :
    (∃ j ms, m = .call (.setDuration j ms) ∧
      w' = { w with system := w.system.setDuration j ms }) ∨
    (∃ t, m = .call (.replaceTiming t) ∧ w' = { w with system := w.system.replaceTiming t }) ∨
    w.KeepsTime w' := by
  cases hplain : m.isPlain with
  | true =>
    have hb := h.bystands hplain hm
    refine .inr (.inr ⟨hb.timing, ?_⟩)
    obtain ⟨hpoint, -, hown⟩ | ⟨-, -, hown, -⟩ := hb.worker
    · exact .inr ⟨hown, .inl hpoint⟩
    · exact .inl hown
  | false =>
    cases m with
    | guest | raiseStop | joinWorker => cases hplain
    | work =>
      refine .inr (.inr ?_)
      obtain ⟨hwork, rfl⟩ := next_work hm
      obtain ⟨p, s', hp, -, -, hstep, ha⟩ := h.step hwork
      obtain ⟨worker, hrun, rfl⟩ := exists_worker hp
      refine ⟨(congrArg Watering.timing hstep).trans ha.timing, ?_⟩
      have hpoint : w.system.step.point? = some (w.system.nextPoint worker.point) := by
        rw [hstep]
        exact ha.point
      have hstay := Watering.ownTiming_step hrun (by rw [h.faults])
      simp only [hpoint]
      cases hin : worker.point.inIteration with
      | false =>
        rw [hin, Bool.false_and, if_neg Bool.false_ne_true] at hstay
        exact .inl (hstay.trans (hw _ hp hin))
      | true =>
        cases hnext : (w.system.nextPoint worker.point).inIteration with
        | false =>
          rw [hin, hnext] at hstay
          exact .inl hstay
        | true =>
          rw [hin, hnext] at hstay
          exact .inr ⟨hstay, .inr ⟨_, rfl, hnext⟩⟩
    | call c =>
      obtain ⟨-, hc⟩ := next_call hm
      cases c with
      | start | askStop | enable | closeChip | say => cases hplain
      | setDuration j ms => exact .inl ⟨j, ms, rfl, (Option.some.inj hc).symm⟩
      | replaceTiming t => exact .inr (.inl ⟨t, rfl, (Option.some.inj hc).symm⟩)
      | rebind wanted =>
        obtain ⟨hlines, rfl⟩ := call_rebind hc
        refine .inr (.inr (.of_run ?_ ?_)) <;>
          simp only [Watering.rebind, Watering.awaitLines_of_free hlines]
      | build pins =>
        refine .inr (.inr ?_)
        simp only [call] at hc
        split at hc <;> obtain rfl := Option.some.inj hc <;> exact .of_run rfl rfl
      | discard k =>
        obtain ⟨c, -, rfl⟩ := call_discard hc
        exact .inr (.inr (.of_run rfl rfl))
      | install k =>
        obtain ⟨c, -, huse, rfl⟩ := call_install hc
        refine .inr (.inr ?_)
        rw [Watering.replaceHardware]
        split
        · refine ⟨rfl, .inr ⟨?_, .inl ?_⟩⟩
          · simp only [log, record, Watering.ownTiming, Option.bind_map, Function.comp_def]
          · simp only [log, record, Watering.point?, Option.map_map, Function.comp_def]
        · next hnot =>
          rw [Watering.awaitLines_of_free (huse.resolve_left hnot)]
          exact .of_run rfl rfl

theorem Rested.next (hw : w.Rested) (h : w.Steady) {m : Move} (hm : w.next m = some w') :
    w'.Rested := by
  obtain ⟨j, ms, -, rfl⟩ | ⟨t, -, rfl⟩ | hkeeps := h.keepsTime hw hm
  · exact hw
  · intro p hp hout
    -- Only an iteration that uses the durations in force puts them aside.
    have hpoint : w.system.point? = some p := by
      rw [← hp]
      exact (Watering.sameJob_replaceTiming t).point.symm
    have huse : w.system.timingInUse = false := by
      obtain ⟨worker, hrun, rfl⟩ := exists_worker hpoint
      rw [Watering.timingInUse, hrun]
      simp only
      cases hholds : worker.point.holdsTiming with
      | false => rfl
      | true =>
        have hin := Point.inIteration_of_usesTiming (p := worker.point)
          (by rw [Point.usesTiming, hholds]; rfl)
        cases hin.symm.trans hout
    have hreplace : (w.system.replaceTiming t).ownTiming = w.system.ownTiming := by
      rw [Watering.replaceTiming, huse]
      rfl
    exact hreplace.trans (hw p hpoint hout)
  · exact hkeeps.rested hw

theorem Reachable.rested (h : w.Reachable) : w.Rested := by
  induction h with
  | wired before hbefore hwired =>
    obtain ⟨-, -, -, -, hs⟩ := wire_eq_ok hwired
    intro p hp _
    rw [hs] at hp
    cases hp
  | move h hm ih => exact ih.next h.steady hm

/-- Moves that leave a duration to themselves leave it as it is, and the worker is given no others
to keep. -/
theorem Reachable.spared (h : w.Reachable) (moves : List Move)
    (hmoves : ∀ m ∈ moves, m.spares i = true) (hrun : World.run moves w = some w') :
    w'.system.timing.get i = w.system.timing.get i ∧
      (w.system.ownTiming = none → w'.system.ownTiming = none) := by
  have hspared : w'.Reachable ∧ w'.system.timing.get i = w.system.timing.get i ∧
      (w.system.ownTiming = none → w'.system.ownTiming = none) := by
    refine run_induction (P := fun v => v.Reachable ∧
      v.system.timing.get i = w.system.timing.get i ∧
      (w.system.ownTiming = none → v.system.ownTiming = none))
      (fun {v v'} m hv hspares hm => ?_) ⟨h, rfl, id⟩ moves hmoves hrun
    obtain ⟨hreach, hsame, hown⟩ := hv
    refine ⟨hreach.move hm, ?_⟩
    obtain ⟨j, ms, rfl, rfl⟩ | ⟨t, rfl, rfl⟩ | hkeeps :=
      hreach.steady.keepsTime hreach.rested hm
    · have hne : i ≠ j := (bne_iff_ne.mp hspares).symm
      refine ⟨?_, hown⟩
      rw [← hsame]
      exact (Timing.get_set ..).trans (if_neg hne)
    · cases hspares
    · refine ⟨by rw [hkeeps.timing, hsame], fun hnone => ?_⟩
      obtain hfresh | ⟨hkept, -⟩ := hkeeps.own
      · exact hfresh
      · exact hkept.trans (hown hnone)
  exact hspared.2

/-- What is read of a duration in a world. -/
structure ReadsBack (w : World) (i : Interval) (ms : UInt64) : Prop where
  /-- The status shows it. -/
  status : w.system.status.duration i = ms.toNat
  /-- The worker that is about to read it reads it, if its iteration uses the durations in force. -/
  worker : ∀ p, w.system.point? = some p → p.reading? = some i → w.system.ownTiming = none →
    w.system.marks = [.reads i ms]
  /-- An iteration that uses others, since these were replaced, goes on with the others. -/
  replaced : ∀ p t, w.system.point? = some p → p.reading? = some i →
    w.system.ownTiming = some t → w.system.marks = [.reads i (t.get i)]
  /-- They are forgotten when it is over. -/
  rested : ∀ p, w.system.point? = some p → p.inIteration = false → w.system.ownTiming = none

theorem marks_reading {p : Point} (hp : w.system.point? = some p) (hreading : p.reading? = some i) :
    w.system.marks = [.reads i (w.system.iterationTiming.get i)] := by
  rw [Watering.marks, hp]
  cases p <;> cases hreading <;> rfl

theorem Reachable.readsBack (h : w.Reachable) (i : Interval) :
    w.ReadsBack i (w.system.timing.get i) where
  status := w.system.status_duration i
  worker := by
    intro p hp hreading hown
    rw [marks_reading hp hreading]
    change [Mark.reads i ((w.system.ownTiming.getD w.system.timing).get i)] = _
    rw [hown]
    rfl
  replaced := by
    intro p t hp hreading hown
    rw [marks_reading hp hreading]
    change [Mark.reads i ((w.system.ownTiming.getD w.system.timing).get i)] = _
    rw [hown]
    rfl
  rested := h.rested

end World

/-! ## Commands with a number -/

namespace Service

/-- A service sets a duration to `ms` and becomes `sv'`. -/
structure SetsDuration (sv : Service) (i : Interval) (value : Int) (ms : UInt64) (sv' : Service) :
    Prop where
  /-- The number is brought into range. -/
  number : (ms.toNat : Int) = max 0 (min value sv.limits.maxDurationMs.toNat)
  /-- Only that duration is new, and what is said: one warning if the number was out of range. -/
  change : ∃ said : List Effect,
    sv' = { sv with
      system := { sv.system with timing := sv.system.timing.set i ms }.noting said } ∧
    said = rangeWarning i.label value sv.limits.maxDurationMs.toNat ++
      [.log .info s!"Service: {i.label} set to {ms.toNat} ms"] ∧
    said.countP Effect.isNotice =
      if 0 ≤ value ∧ value ≤ sv.limits.maxDurationMs.toNat then 0 else 1
  /-- The status shows it at once, and the other durations as before. -/
  shown : sv'.system.status.duration i = ms.toNat
  others : ∀ j, j ≠ i → sv'.system.status.duration j = sv.system.status.duration j
  /-- It goes on in a reachable world. -/
  reached : ∃ w : World, w.Reachable ∧ w.caller = .free ∧ w.system = sv'.system
  /-- The status and the worker read it back until it is set again or replaced. -/
  readBack : ∀ w : World, w.Reachable → w.system = sv'.system →
    ∀ (moves : List Move) (w' : World), (∀ m ∈ moves, m.spares i = true) →
      World.run moves w = some w' → w'.ReadsBack i ms
  /-- From where the worker has no replaced durations, it has none from then on. -/
  lasting : ∀ w : World, w.Reachable → w.system.ownTiming = none →
    ∀ (moves : List Move) (w' : World), (∀ m ∈ moves, m.spares i = true) →
      World.run moves w = some w' → w'.system.ownTiming = none

/-- A service moves a device to a line and becomes `sv'`, which is what the move alone makes of it
but for what is said. -/
structure MovesTo (sv : Service) (r : Role) (value : Int) (line : Offset) (sv' : Service) :
    Prop where
  /-- The number is brought into range. -/
  number : (line.toNat : Int) = max 0 (min value sv.limits.maxPinOffset.toNat)
  /-- The service says one thing more if the number was out of range, before the move, and one
  thing more if the move fails, after it. -/
  change : ∃ (moved : List (Actor × Effect)) (before after : List Effect),
    (sv.system.move r line).2.rig.journal = sv.system.rig.journal ++ moved ∧
    sv' = { sv with
      system := (World.rejournal (sv.system.move r line).2 (sv.system.rig.journal ++
        before.map (fun e => (sv.system.rig.actor, e)) ++ moved)).noting after } ∧
    before = rangeWarning r.label value sv.limits.maxPinOffset.toNat ∧
    before.countP Effect.isNotice =
      (if 0 ≤ value ∧ value ≤ sv.limits.maxPinOffset.toNat then 0 else 1) ∧
    after = moveFailure r line.toNat (sv.system.move r line).1 ∧
    after.countP Effect.isNotice = if (sv.system.move r line).1 = .ok () then 0 else 1

/-- What a service makes of the commands with a number. -/
structure Clamps (sv : Service) : Prop where
  duration : ∀ (i : Interval) (value : Int), ∃ ms sv',
    sv.handle (.setDuration i value) = (.ok (), sv') ∧ sv.SetsDuration i value ms sv'
  line : ∀ (r : Role) (value : Int), ∃ line sv',
    sv.handle (.setLine r value) = ((sv.system.move r line).1.mapError .line, sv') ∧
      sv.MovesTo r value line sv'

end Service

namespace World

variable {w : World} {sv : Service}

theorem Reachable.setsDuration (h : w.Reachable) (hfree : w.caller = .free)
    (hsv : sv.system = w.system) (i : Interval) (value : Int) :
    sv.SetsDuration i value (.ofNat (clamp sv.limits.maxDurationMs.toNat value))
      (sv.setDuration i value) where
  number := by rw [toNat_clamp_duration, clamp_eq]
  change := by
    refine ⟨_, sv.setDuration_eq i value, by rw [toNat_clamp_duration], ?_⟩
    rw [List.countP_append, Service.countP_rangeWarning]
    rfl
  shown := by
    rw [Service.setDuration_eq, Watering.status_duration]
    exact congrArg UInt64.toNat ((Timing.get_set ..).trans (if_pos rfl))
  others := by
    intro j hne
    rw [Service.setDuration_eq, Watering.status_duration, Watering.status_duration]
    exact congrArg UInt64.toNat ((Timing.get_set ..).trans (if_neg hne))
  reached := by
    have hacts : Acts (fun _ => True) sv.limits fun sv => (sv.handle (.setDuration i value)).2 :=
      acts_handle ⟨trivial, fun _ => trivial, trivial, trivial⟩ trivial
    exact h.done (hacts.does h.steady hfree hsv rfl)
  readBack := by
    intro w₁ h₁ hs moves w' hspares hrun
    have htiming : w'.system.timing.get i =
        .ofNat (clamp sv.limits.maxDurationMs.toNat value) := by
      rw [(h₁.spared moves hspares hrun).1, hs, Service.setDuration_eq]
      exact (Timing.get_set ..).trans (if_pos rfl)
    rw [← htiming]
    exact (h₁.run moves hrun).readsBack i
  lasting := fun _ h₁ hown moves _ hspares hrun => (h₁.spared moves hspares hrun).2 hown

theorem Reachable.movesTo (h : w.Reachable) (hsv : sv.system = w.system) (r : Role) (value : Int) :
    sv.handle (.setLine r value) =
      ((sv.system.move r (.ofNat (clamp sv.limits.maxPinOffset.toNat value))).1.mapError .line,
        (sv.handle (.setLine r value)).2) ∧
    sv.MovesTo r value (.ofNat (clamp sv.limits.maxPinOffset.toNat value))
      (sv.handle (.setLine r value)).2 := by
  have hsafe : sv.system.rig.faults.deadlyLine = none := by rw [hsv, h.steady.faults]
  obtain ⟨moved, hmoved, hall⟩ := Service.setLine_eq hsafe r value rfl
  rw [Service.handle, hall]
  refine ⟨rfl, by rw [toNat_clamp_line, clamp_eq], moved, _, _, hmoved, rfl, rfl,
    Service.countP_rangeWarning .., by rw [toNat_clamp_line], Service.countP_moveFailure ..⟩

/-- **Commands with a number do what they name, with the number in range, and nothing else.** -/
theorem clamped_commands (h : w.Reachable) (hfree : w.caller = .free) (hsv : sv.system = w.system) :
    sv.Clamps where
  duration := fun i value => ⟨_, _, rfl, h.setsDuration hfree hsv i value⟩
  line := fun r value => ⟨_, _, h.movesTo hsv r value⟩

/-- The worker is about to start the pump, and the limits are the widest ones. -/
theorem clamped_at_the_widest : ∃ w : World,
    after ⟨⟨17, .activeHigh⟩, ⟨27, .activeLow⟩⟩ (.call (.start none) :: List.replicate 9 .work) =
      some w ∧
    w.system.linesHeld = true ∧
    (⟨w.system, ⟨18446744073709551615, 4294967295⟩, none⟩ : Service).Clamps := by
  obtain ⟨w, hw, hfacts⟩ := (Option.any_eq_true
    (fun w : World => w.system.linesHeld && decide (w.caller = .free)) _).mp
    (show Option.any _ (after ⟨⟨17, .activeHigh⟩, ⟨27, .activeLow⟩⟩
      (.call (.start none) :: List.replicate 9 .work)) = true by rfl)
  rw [Bool.and_eq_true, decide_eq_true_iff] at hfacts
  exact ⟨w, hw, hfacts.1, clamped_commands (reachable_of_after hw) hfacts.2 rfl⟩

end World

end Irrigation
