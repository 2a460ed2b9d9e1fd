import Irrigation.Proofs.Worker.Fading
import Irrigation.Proofs.World.Stopping

/-!
# Jobs that end by themselves

When both devices are disabled, the job needs no stop to end. As long as the caller neither enables
a device nor asks for a stop (`Move.letsFade`), the worker of a world fades (`World.Fades`),
whatever becomes of lines, durations and controllers meanwhile: each of its steps brings it nearer
to its end, and it keeps to the budgets of a worker with nothing to water (`World.Dwindles`).
`World.ends_by_itself` puts together how little is seen of it, how soon it is over, and what it
leaves.
-/

namespace Irrigation

/-- Whether a move neither enables a device nor asks for a stop. -/
def Move.letsFade : Move → Bool
  | .call (.enable _ on) => !on
  | .call (.askStop _) => false
  | _ => true

/-- The flags after a call. -/
def Call.flags (enabled : Each Bool) : Call → Each Bool
  | .enable role on => enabled.set role on
  | _ => enabled

namespace World

variable {w w' : World} {steps : Nat} {new : List Mark}

/-- Only the call that is for it changes a flag. -/
theorem Steady.enabled_call (h : w.Steady) {c : Call} (hc : w.call c = some w') :
    w'.system.enabled = c.flags w.system.enabled := by
  cases c with
  | start flow =>
    obtain ⟨_, -, -, rfl⟩ | ⟨hrefusal, -, rfl⟩ := call_start hc
    · rfl
    · simp only [(h.start_eq hrefusal).2]
      rfl
  | askStop origin =>
    obtain ⟨-, rfl⟩ | ⟨-, rfl⟩ := call_askStop hc
    · rfl
    · simp only [h.declineStop_eq]
      rfl
  | rebind wanted =>
    obtain ⟨hlines, rfl⟩ := call_rebind hc
    simp only [Watering.rebind, Watering.awaitLines_of_free hlines]
    rfl
  | build pins =>
    simp only [call] at hc
    split at hc <;> obtain rfl := Option.some.inj hc <;> rfl
  | install i =>
    obtain ⟨c, -, hwait, rfl⟩ := call_install hc
    simp only [Watering.replaceHardware]
    split
    · rfl
    · next huse =>
      rw [Watering.awaitLines_of_free (hwait.resolve_left huse)]
      rfl
  | discard i =>
    obtain ⟨c, -, rfl⟩ := call_discard hc
    rfl
  | replaceTiming t =>
    obtain rfl := Option.some.inj hc
    simp only [Watering.replaceTiming]
    split <;> rfl
  | say e =>
    obtain ⟨-, rfl⟩ := call_say hc
    rfl
  | _ =>
    obtain rfl := Option.some.inj hc
    rfl

/-! ## Fading -/

/-- Both devices are disabled, and the caller is free. -/
structure Fades (w : World) : Prop where
  steady : w.Steady
  free : w.caller = .free
  enabled : w.system.enabled = .both false

theorem Fades.system (h : w.Fades) : (w.system.actAs .worker).Fades where
  enabled := h.enabled
  stop := h.steady.no_stop h.free

/-- No job is started while both devices are disabled. -/
theorem Fades.refusal (h : w.Fades) (flow : Option String) : w.system.refusal? flow ≠ none := by
  unfold Watering.refusal?
  rw [h.enabled]
  split
  · rintro ⟨⟩
  · split <;> rintro ⟨⟩

theorem Fades.enabled_call (h : w.Fades) {c : Call} (hfade : (Move.call c).letsFade = true)
    (hc : w.call c = some w') : w'.system.enabled = .both false := by
  rw [h.steady.enabled_call hc, h.enabled]
  cases c with
  | enable role on =>
    cases on with
    | true => cases hfade
    | false => cases role <;> rfl
  | _ => rfl

/-- How many steps the worker takes at most to its end, once the world fades. -/
def left (w : World) : Nat := (w.system.point?.map Point.left).getD 0

theorem left_le (w : World) : w.left ≤ 41 := by
  unfold left
  cases w.system.point? with
  | none => exact Nat.zero_le _
  | some p => exact Irrigation.left_le p

/-- From `w` to `w'` a worker that fades took so many steps and showed these marks. -/
structure Dwindles (w w' : World) (steps : Nat) (new : List Mark) : Prop where
  fades : w'.Fades
  trace : w'.trace = w.trace ++ new
  left : steps + w'.left ≤ w.left
  cycles : w'.system.cycles = w.system.cycles + new.countP Mark.completes
  shown : ∀ (counts : Mark → Bool) (may : Point → Bool), Budget Watering.Fades counts may →
    new.countP counts + (w'.isAt may).toNat ≤ (w.isAt may).toNat

theorem Dwindles.trans {w₁ w₂ w₃ : World} {m n : Nat} {more : List Mark}
    (h : w₁.Dwindles w₂ m new) (h' : w₂.Dwindles w₃ n more) :
    w₁.Dwindles w₃ (m + n) (new ++ more) where
  fades := h'.fades
  trace := by rw [h'.trace, h.trace, List.append_assoc]
  left := by
    have hle := h.left
    have hle' := h'.left
    omega
  cycles := by rw [h'.cycles, h.cycles, List.countP_append, Nat.add_assoc]
  shown := by
    intro counts may hmay
    have hle := h.shown counts may hmay
    have hle' := h'.shown counts may hmay
    rw [List.countP_append]
    omega

/-- The worker stays where it is, and shows nothing. -/
theorem Fades.kept (h : w.Fades) (hsteady : w'.Steady) (hs : w.system.SameJob w'.system)
    (hc : w'.caller = w.caller) (ht : w'.trace = w.trace)
    (henabled : w'.system.enabled = .both false) : w.Dwindles w' 0 [] where
  fades := ⟨hsteady, hc.trans h.free, henabled⟩
  trace := by rw [ht, List.append_nil]
  left := Nat.le_of_eq (by rw [left, left, hs.point, Nat.zero_add])
  cycles := hs.cycles
  shown := by
    intro counts may _
    exact Nat.le_of_eq (by rw [isAt, isAt, hs.point, List.countP_nil, Nat.zero_add])

/-- The worker takes a step. -/
theorem Fades.worked (h : w.Fades) (hwork : w.system.isWorking = true) :
    w.Dwindles w.worked 1 w.system.marks := by
  obtain ⟨p, s', hp, hover, hmarks, hstep, ha⟩ := h.steady.step hwork
  have hpoint : w.system.step.point? = some (Watering.nextPoint (w.system.actAs .worker) p) := by
    rw [hstep]
    exact ha.point
  have hsteady : w.worked.Steady := h.steady.worked hwork rfl rfl
  refine ⟨⟨hsteady, h.free, ?_⟩, rfl, ?_, ?_, ?_⟩
  · change w.system.step.enabled = _
    rw [hstep]
    exact ha.enabled.trans h.enabled
  · have hleft := left_nextPoint h.system hover
    rw [left, left, hp, World.worked, hpoint]
    simp only [Option.map_some, Option.getD_some]
    omega
  · change w.system.step.cycles = _
    rw [hstep, hmarks, countP_completes_marksAt]
    change s'.cycles = _
    rw [ha.cycles]
    split <;> rfl
  · intro counts may hmay
    rw [isAt, isAt, World.worked, hpoint, hp, hmarks]
    exact hmay _ p h.system

/-- One move, as long as nobody enables a device or asks for a stop. -/
theorem Fades.next (h : w.Fades) {m : Move} (hfade : m.letsFade = true)
    (hm : w.next m = some w') : ∃ new, w.Dwindles w' m.isWork.toNat new := by
  have hsteady := h.steady.next hm
  cases m with
  | work =>
    obtain ⟨hwork, rfl⟩ := next_work hm
    exact ⟨_, h.worked hwork⟩
  | raiseStop =>
    obtain ⟨origin, hraising, -⟩ := next_raiseStop hm
    rw [h.free] at hraising
    cases hraising
  | joinWorker =>
    obtain ⟨origin, hwaiting, -, -⟩ := next_joinWorker hm
    rw [h.free] at hwaiting
    cases hwaiting
  | guest g =>
    obtain rfl := Option.some.inj hm
    exact ⟨[], h.kept hsteady (.of_rig (Watering.routine_guest g ..)) rfl rfl h.enabled⟩
  | call c =>
    obtain ⟨-, hc⟩ := next_call hm
    have henabled := h.enabled_call hfade hc
    refine ⟨[], ?_⟩
    cases haside : c.isAside with
    | true =>
      obtain ⟨hs, hcaller, ht⟩ := call_aside haside hc
      exact h.kept hsteady hs hcaller ht henabled
    | false =>
      cases c with
      | start flow =>
        obtain ⟨reason, -, -, rfl⟩ | ⟨hrefusal, -⟩ := call_start hc
        · exact h.kept hsteady (.of_rig (.report ..)) rfl rfl henabled
        · exact absurd hrefusal (h.refusal flow)
      | askStop origin => cases hfade
      | _ => cases haside

/-- **A world that fades goes on to do so**, and its worker comes nearer to its end. -/
theorem Fades.run (h : w.Fades) (moves : List Move) (hfade : ∀ m ∈ moves, m.letsFade = true)
    (hrun : World.run moves w = some w') :
    ∃ new, w.Dwindles w' (moves.countP Move.isWork) new := by
  refine run_adds (P := Fades) (A := (·.letsFade)) (fun h => ?_) Dwindles.trans
    (fun h hfade hm => ?_) h moves hfade hrun
  · exact ⟨h, (List.append_nil _).symm, Nat.le_of_eq (Nat.zero_add _), rfl,
      fun _ _ _ => Nat.le_of_eq (Nat.zero_add _)⟩
  · obtain ⟨new, hnew⟩ := h.next hfade hm
    exact ⟨hnew.fades, new, hnew⟩

/-- A worker that is left alone gets to its end. -/
theorem Fades.runs_out (h : w.Fades) : ∃ n w', n ≤ w.left ∧
    World.run (List.replicate n .work) w = some w' ∧ w'.system.isWorking = false := by
  obtain ⟨n, w', hn, hrun, -, hover⟩ := World.runs_out (P := Fades) (g := left)
    (fun h hwork => ⟨(h.worked hwork).fades, (h.worked hwork).left⟩) w.left h (Nat.le_refl _)
  exact ⟨n, w', hn, hrun, hover⟩

/-! ## What follows -/

/-- How little may be seen of the worker of `w` once both devices are disabled. -/
structure ShowsFading (w : World) (new : List Mark) : Prop where
  /-- The flags are read at the head of one more iteration at most: of the one that has just begun,
  or of one that is yet to begin. -/
  heads : new.count .began + (w.isAt Point.unread).toNat ≤ 1
  /-- A device is switched on only in the iteration under way, and only if the worker had found it
  enabled at the head of that iteration; then no other iteration begins. -/
  activates : ∀ role line, .call role true line ∈ new →
    w.isAt (Point.armed role) = true ∧ .began ∉ new
  /-- At most one more cycle is counted. -/
  counted : new.countP Mark.completes ≤ 1

/-- What holds of the worker's point, if there is one. -/
theorem isAt_eq_true {q : Point → Bool} :
    w.isAt q = true ↔ ∃ p, w.system.point? = some p ∧ q p = true := by
  unfold isAt
  cases w.system.point? with
  | none => simp
  | some p => simp

theorem isAt_eq_false_of {q q' : Point → Bool} (h : ∀ p, q p = true → q' p = false)
    (hq : w.isAt q = true) : w.isAt q' = false := by
  obtain ⟨p, hp, hqp⟩ := isAt_eq_true.mp hq
  rw [Bool.eq_false_iff]
  intro hq'
  obtain ⟨p', hp', hqp'⟩ := isAt_eq_true.mp hq'
  obtain rfl := Option.some.inj (hp.symm.trans hp')
  rw [h p hqp] at hqp'
  cases hqp'

theorem Dwindles.showsFading (h : w.Dwindles w' steps new) : w.ShowsFading new := by
  have hbegan : new.count .began ≤ (w.isAt Point.mayBegin).toNat :=
    Nat.le_trans (Nat.le_add_right _ _) (h.shown _ _ budget_began)
  refine ⟨?_, fun role line hmem => ?_, ?_⟩
  · cases hunread : w.isAt Point.unread with
    | true =>
      rw [isAt_eq_false_of (fun _ => not_mayBegin_of_unread) hunread] at hbegan
      exact Nat.add_le_add hbegan (Nat.le_refl 1)
    | false => exact Nat.le_trans hbegan (Bool.toNat_le _)
  · have harmed : w.isAt (Point.armed role) = true := by
      have hle := Nat.le_trans (Nat.le_add_right _ _) (h.shown _ _ (budget_activates role))
      have hpos : 0 < new.countP (Mark.activates role) :=
        List.countP_pos_iff.mpr ⟨_, hmem, by simp [Mark.activates]⟩
      cases hat : w.isAt (Point.armed role) with
      | true => rfl
      | false =>
        rw [hat] at hle
        exact absurd hle (Nat.not_le.mpr hpos)
    refine ⟨harmed, ?_⟩
    rw [isAt_eq_false_of (fun _ => not_mayBegin_of_armed) harmed] at hbegan
    exact List.count_eq_zero.mp (Nat.le_zero.mp hbegan)
  · have hle := Nat.le_trans (Nat.le_add_right _ _) (h.shown _ _ budget_counted)
    exact Nat.le_trans hle (Bool.toNat_le _)

/-- The worker is over, and has left everything off. -/
structure Finished (w w' : World) (new : List Mark) : Prop where
  running : w'.system.running = false
  state : w'.system.state = .disabled
  /-- Every output of every controller is off, and so is its line. -/
  off : ∀ c ∈ w'.live, ∀ role o, (c.slot role).output = some o → o.active = false ∧
    w'.system.rig.chip.level? o.offset = some ((c.slot role).polarity.level false)
  /-- The counter keeps its value: what it was, and the cycles counted since. -/
  cycles : w'.system.cycles = w.system.cycles + new.countP Mark.completes

theorem Dwindles.finished (h : w.Dwindles w' steps new) (hreach : w'.Reachable)
    (hover : w'.system.isWorking = false) : w.Finished w' new := by
  obtain ⟨hidle, hdisabled⟩ := h.fades.steady.not_running hover
  have hdark := hreach.orderly.dark hreach.steady (.inl hidle)
  refine ⟨hidle, hdisabled, fun c hc role o ho => ?_, h.cycles⟩
  have hoff := hreach.orderly.off hdark hc ho
  refine ⟨hoff, ?_⟩
  rw [hreach.orderly.level hc ho, hoff]

/-- A job can be started again as soon as a device is enabled again. -/
theorem start_after_enable {s : Watering} (hidle : s.running = false) (role : Role) :
    ((s.enable role true).start none).1 = true := by
  have hrefusal : (s.enable role true).refusal? none = none := by
    have hany : (s.enabled.set role true).any = true := by
      cases role <;> simp [Each.set, Each.any]
    unfold Watering.refusal?
    change (if s.running = true then _ else if (!(s.enabled.set role true).any) = true then _
      else none) = none
    rw [hidle, hany]
    rfl
  rw [Watering.start, hrefusal]

/-- What it means that the job of a world ends by itself while both devices are disabled. -/
structure EndsByItself (w : World) : Prop where
  /-- As long as nobody enables a device or asks for a stop, the worker takes few steps more, and
  shows little. -/
  fades : ∀ (moves : List Move) (w' : World), (∀ m ∈ moves, m.letsFade = true) →
    World.run moves w = some w' → moves.countP Move.isWork ≤ 41 ∧
      ∃ new, w'.trace = w.trace ++ new ∧ w.ShowsFading new ∧
        (w'.system.isWorking = false → w.Finished w' new)
  /-- At any time the worker gets to its end, if it is left alone, within the same bound. -/
  ends : ∀ (moves : List Move) (w' : World), (∀ m ∈ moves, m.letsFade = true) →
    World.run moves w = some w' → ∃ n w'', moves.countP Move.isWork + n ≤ 41 ∧
      World.run (List.replicate n .work) w' = some w'' ∧ w''.system.isWorking = false
  /-- When it is over, a device that is enabled again allows for a new start. -/
  startable : ∀ (moves : List Move) (w' : World), (∀ m ∈ moves, m.letsFade = true) →
    World.run moves w = some w' → w'.system.isWorking = false →
      ∀ role, ((w'.system.enable role true).start none).1 = true
  /-- A start that is accepted later begins a job of its own, at no cycles. -/
  anew : ∀ (moves : List Move) (w' : World), World.run moves w = some w' →
    ∀ flow, (w'.system.start flow).1 = true → BeginsAnew (w'.system.start flow).2

/-- **A job ends by itself** when both devices are disabled and stay so, without a stop. -/
theorem ends_by_itself (h : w.Reachable) (hfree : w.caller = .free)
    (hoff : w.system.enabled = .both false) : w.EndsByItself where
  fades := by
    intro moves w' hfade hrun
    obtain ⟨new, hnew⟩ := Fades.run ⟨h.steady, hfree, hoff⟩ moves hfade hrun
    have hsteps : moves.countP Move.isWork ≤ 41 :=
      Nat.le_trans (Nat.le_trans (Nat.le_add_right _ _) hnew.left) w.left_le
    exact ⟨hsteps, new, hnew.trace, hnew.showsFading, hnew.finished (h.run moves hrun)⟩
  ends := by
    intro moves w' hfade hrun
    obtain ⟨new, hnew⟩ := Fades.run ⟨h.steady, hfree, hoff⟩ moves hfade hrun
    obtain ⟨n, w'', hn, hrest, hover⟩ := hnew.fades.runs_out
    have hleft := hnew.left
    have hbound := w.left_le
    exact ⟨n, w'', by omega, hrest, hover⟩
  startable := by
    intro moves w' hfade hrun hover role
    exact start_after_enable ((h.run moves hrun).steady.not_running hover).1 role
  anew := fun moves _ hrun _ haccepted => (h.run moves hrun).steady.begins_anew haccepted

/-- The flag of the valve is read at the head of an iteration, then both devices are disabled. -/
theorem ends_by_itself_after_valve_was_read : ∃ w : World,
    after ⟨⟨17, .activeHigh⟩, ⟨27, .activeLow⟩⟩
      (.call (.start none) :: List.replicate 5 .work ++
        [.call (.enable .valve false), .call (.enable .pump false)]) = some w ∧
    (w.system.running && w.isAt (Point.armed .valve)) = true ∧ w.EndsByItself := by
  obtain ⟨w, hw, hfacts⟩ := (Option.any_eq_true
    (fun w : World => (w.system.running && w.isAt (Point.armed .valve)) &&
      (w.caller == .free && w.system.enabled == .both false)) _).mp
    (show Option.any _ (after ⟨⟨17, .activeHigh⟩, ⟨27, .activeLow⟩⟩
      (.call (.start none) :: List.replicate 5 .work ++
        [.call (.enable .valve false), .call (.enable .pump false)])) = true by rfl)
  rw [Bool.and_eq_true, Bool.and_eq_true (w.caller == .free), beq_iff_eq, beq_iff_eq] at hfacts
  exact ⟨w, hw, hfacts.1, ends_by_itself (reachable_of_after hw) hfacts.2.1 hfacts.2.2⟩

end World

end Irrigation
