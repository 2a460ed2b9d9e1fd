import Irrigation.Proofs.World.Origins
import Irrigation.Proofs.World.Outputs
import Irrigation.Proofs.World.Telling

/-!
# Stops

A stop that was raised ends the job in bounded time. Until then no iteration begins, and little
else happens (`Steady.hurry`). When the caller is free again the job is over, and flags, durations
and bindings are what they were (`Reachable.returned`). `World.StopsInTime` puts this together with
what `Origins` says of the one who asked.
-/

namespace Irrigation

/-- Whether a move is a step of the worker. -/
def Move.isWork : Move → Bool
  | .work => true
  | _ => false

/-- Where a role is bound: its polarity, its offset, and the line that it holds, if any. -/
def Slot.binding (s : Slot) : Polarity × Offset × Option Offset :=
  (s.polarity, s.offset, s.output.map Output.offset)

namespace World

variable {w w' : World}

/-! ## On the way to the end -/

section

variable {P : World → Prop}

/-- What single moves do adds up over a run: the steps of the worker, and the marks it shows. -/
theorem run_adds {A : Move → Prop} {does : World → World → Nat → List Mark → Prop}
    (hnil : ∀ {w}, P w → does w w 0 [])
    (htrans : ∀ {w₁ w₂ w₃ m n new more}, does w₁ w₂ m new → does w₂ w₃ n more →
      does w₁ w₃ (m + n) (new ++ more))
    (hnext : ∀ {w w' m}, P w → A m → w.next m = some w' →
      P w' ∧ ∃ new, does w w' m.isWork.toNat new)
    (h : P w) (moves : List Move) (hallowed : ∀ m ∈ moves, A m)
    (hrun : World.run moves w = some w') : ∃ new, does w w' (moves.countP Move.isWork) new := by
  induction moves generalizing w with
  | nil =>
    obtain rfl := Option.some.inj hrun
    exact ⟨[], hnil h⟩
  | cons m rest ih =>
    obtain ⟨w₁, hm, hrest⟩ := Option.bind_eq_some_iff.mp hrun
    rw [List.forall_mem_cons] at hallowed
    obtain ⟨h₁, new, hnew⟩ := hnext h hallowed.1 hm
    obtain ⟨more, hmore⟩ := ih h₁ hallowed.2 hrest
    refine ⟨new ++ more, ?_⟩
    have hall := htrans hnew hmore
    -- Only the worker's own moves count as steps.
    rw [List.countP_cons, Nat.add_comm]
    cases hwork : m.isWork <;> rw [hwork] at hall <;> exact hall

/-- A worker that every step brings nearer to its end gets there if it is left alone. -/
theorem runs_out {g : World → Nat}
    (hstep : ∀ {w}, P w → w.system.isWorking = true →
      P w.worked ∧ 1 + g w.worked ≤ g w) (k : Nat) :
    ∀ {w : World}, P w → g w ≤ k → ∃ n w', n ≤ k ∧
      World.run (List.replicate n .work) w = some w' ∧ P w' ∧
      w'.system.isWorking = false := by
  induction k with
  | zero =>
    intro w h hg
    refine ⟨0, w, Nat.le_refl 0, rfl, h, ?_⟩
    rw [Bool.eq_false_iff]
    intro hwork
    have hle := (hstep h hwork).2
    omega
  | succ k ih =>
    intro w h hg
    cases hwork : w.system.isWorking with
    | false => exact ⟨0, w, Nat.zero_le _, rfl, h, hwork⟩
    | true =>
      obtain ⟨h', hle⟩ := hstep h hwork
      obtain ⟨n, w', hn, hrun, hend⟩ := ih h' (by omega)
      refine ⟨n + 1, w', Nat.succ_le_succ hn, ?_, hend⟩
      change (w.next .work).bind _ = _
      rw [show w.next .work = some w.worked from if_pos hwork]
      exact hrun

end

/-! ## A worker in a hurry -/

/-- Whether the worker is at such a point. -/
def isAt (q : Point → Bool) (w : World) : Bool := (w.system.point?.map q).getD false

/-- How many steps the worker takes at most to its end, once a stop is pending. -/
def toGo (w : World) : Nat := (w.system.point?.map Point.toGo).getD 0

theorem toGo_le_patience (w : World) : w.toGo ≤ Watering.patience := by
  unfold toGo
  cases w.system.point? with
  | none => exact Nat.zero_le _
  | some p => exact Nat.le_trans (Irrigation.toGo_le p) (by decide)

/-- From `w` to `w'` a worker in a hurry took so many steps and showed these marks. -/
structure Hurries (w w' : World) (steps : Nat) (new : List Mark) : Prop where
  steady : w'.Steady
  caller : w'.caller = w.caller
  trace : w'.trace = w.trace ++ new
  toGo : steps + w'.toGo ≤ w.toGo
  shown : ∀ (counts : Mark → Bool) (may : Point → Bool), Affords counts may →
    new.countP counts + (w'.isAt may).toNat ≤ (w.isAt may).toNat

theorem Hurries.trans {w₁ w₂ w₃ : World} {m n : Nat} {new new' : List Mark}
    (h : w₁.Hurries w₂ m new) (h' : w₂.Hurries w₃ n new') :
    w₁.Hurries w₃ (m + n) (new ++ new') where
  steady := h'.steady
  caller := h'.caller.trans h.caller
  trace := by rw [h'.trace, h.trace, List.append_assoc]
  toGo := by
    have hle := h.toGo
    have hle' := h'.toGo
    omega
  shown := by
    intro counts may hmay
    have hle := h.shown counts may hmay
    have hle' := h'.shown counts may hmay
    rw [List.countP_append]
    omega

theorem Steady.stop_pending (h : w.Steady) {origin : StopOrigin}
    (hc : w.caller = .waiting origin) : w.system.stopPending = true :=
  h.stop.mpr ⟨origin, hc⟩

/-- While the caller waits there are the steps of the worker and the moves of third parties. -/
theorem Steady.hurry_next (h : w.Steady) {origin : StopOrigin} (hc : w.caller = .waiting origin)
    {m : Move} (hne : m ≠ .joinWorker) (hm : w.next m = some w') :
    ∃ new, w.Hurries w' m.isWork.toNat new := by
  cases m with
  | joinWorker => exact absurd rfl hne
  | call c =>
    have hfree := (next_call hm).1
    rw [hc] at hfree
    cases hfree
  | raiseStop =>
    rw [World.next, hc] at hm
    cases hm
  | guest g =>
    obtain rfl := Option.some.inj hm
    refine ⟨[], h.next (m := .guest g) rfl, rfl, (List.append_nil _).symm, ?_, fun _ _ _ => ?_⟩
    · exact Nat.le_of_eq (Nat.zero_add _)
    · exact Nat.le_of_eq (Nat.zero_add _)
  | work =>
    have hsteady := h.next hm
    obtain ⟨hwork, rfl⟩ := next_work hm
    obtain ⟨p, s', hp, hover, hmarks, hstep, ha⟩ := h.step hwork
    have hpoint : w.system.step.point? =
        some (Watering.nextPoint (w.system.actAs .worker) p) := by
      rw [hstep]
      exact ha.point
    have hstop : (w.system.actAs .worker).stopPending = true := h.stop_pending hc
    refine ⟨w.system.marks, hsteady, rfl, rfl, ?_, ?_⟩
    · rw [toGo, toGo, hpoint, hp]
      exact Nat.add_comm 1 _ ▸ toGo_nextPoint hstop hover
    · intro counts may hmay
      rw [isAt, isAt, hpoint, hp, hmarks]
      exact hmay _ p hstop

/-- **Once a stop is raised the worker is in a hurry** until the caller takes leave of it. -/
theorem Steady.hurry (h : w.Steady) {origin : StopOrigin} (hc : w.caller = .waiting origin)
    (moves : List Move) (hmoves : .joinWorker ∉ moves) (hrun : World.run moves w = some w') :
    ∃ new, w.Hurries w' (moves.countP Move.isWork) new := by
  refine run_adds (P := fun v => v.Steady ∧ v.caller = .waiting origin)
    (A := (· ≠ .joinWorker)) (fun h => ?_) Hurries.trans (fun h hne hm => ?_) ⟨h, hc⟩ moves
    (fun m hm he => hmoves (he ▸ hm)) hrun
  · exact ⟨h.1, rfl, (List.append_nil _).symm, Nat.le_of_eq (Nat.zero_add _),
      fun _ _ _ => Nat.le_of_eq (Nat.zero_add _)⟩
  · obtain ⟨new, hnew⟩ := h.1.hurry_next h.2 hne hm
    exact ⟨⟨hnew.steady, hnew.caller.trans h.2⟩, new, hnew⟩

/-! ## What a stop leaves as it is -/

/-- Flags, durations and bindings stay as they are. -/
structure Keeps (s s' : Watering) : Prop where
  enabled : s'.enabled = s.enabled
  timing : s'.timing = s.timing
  bindings : ∀ role, (s'.hardware.slot role).binding = (s.hardware.slot role).binding

theorem Keeps.trans {s₁ s₂ s₃ : Watering} (h : Keeps s₁ s₂) (h' : Keeps s₂ s₃) : Keeps s₁ s₃ :=
  ⟨h'.enabled.trans h.enabled, h'.timing.trans h.timing,
    fun role => (h'.bindings role).trans (h.bindings role)⟩

theorem Keeps.of_hardware {s s' : Watering} (he : s'.enabled = s.enabled)
    (ht : s'.timing = s.timing) (hh : s'.hardware = s.hardware) : Keeps s s' :=
  ⟨he, ht, fun role => by rw [hh]⟩

theorem offset_switch (o : Output) (on : Bool) (r : Rig) : (o.switch on r).1.offset = o.offset := by
  unfold Output.switch Output.drive
  split
  · rfl
  · split <;> rfl

theorem binding_served (s : Watering) (r : Role) (on : Bool) (role : Role) :
    ((s.served r on).1.slot role).binding = (s.iterationHardware.slot role).binding := by
  cases ho : (s.iterationHardware.slot r).output with
  | none => rw [(Watering.served_of_none ho on).1]
  | some o =>
    rw [Watering.served_of_some ho, Controller.bind, Controller.slot_modify]
    split
    · next hrole =>
      rw [hrole, Slot.binding, Slot.binding, ho]
      exact congrArg (fun n => (_, _, some n)) (offset_switch o on s.rig)
    · rfl

/-- A worker whose controller was not replaced keeps the bindings. -/
theorem binding_touch {s : Watering} {p : Point} (hreplaced : s.replaced = none)
    (hp : p.forgets = false) (role : Role) :
    ((s.touch p).1.slot role).binding = (s.hardware.slot role).binding := by
  have hardware : s.iterationHardware = s.hardware := by
    rw [Watering.iterationHardware_eq, hreplaced]
    rfl
  cases hcall : p.calls with
  | some x =>
    obtain ⟨r, on⟩ := x
    rw [Watering.touch_of_call hcall, binding_served, hardware]
  | none =>
    have htouch : (s.touch p).1 = s.hardware := by
      rw [← hardware]
      unfold Watering.touch
      rw [hcall]
      cases p <;> first | rfl | (cases hp; done) | (simp only [hreplaced]; rfl)
    rw [htouch]

theorem Steady.keeps_next (h : w.Steady) {m : Move} (hcall : m.isCall = false)
    (hm : w.next m = some w') : Keeps w.system w'.system := by
  cases m with
  | call c => cases hcall
  | raiseStop =>
    obtain ⟨origin, -, rfl⟩ := next_raiseStop hm
    exact .of_hardware rfl rfl rfl
  | joinWorker =>
    obtain ⟨origin, -, -, rfl⟩ := next_joinWorker hm
    simp only [h.concludeStop_eq]
    exact .of_hardware rfl rfl rfl
  | guest g =>
    obtain rfl := Option.some.inj hm
    exact .of_hardware rfl rfl rfl
  | work =>
    obtain ⟨hwork, rfl⟩ := next_work hm
    obtain ⟨p, s', hp, -, -, hstep, ha⟩ := h.step hwork
    have hkeeps : Keeps (w.system.actAs .worker) s' := by
      refine ⟨ha.enabled, ha.timing, fun role => ?_⟩
      rw [ha.hardware]
      split
      · rfl
      · next hreplaced =>
        rw [Option.not_isSome_iff_eq_none] at hreplaced
        refine binding_touch hreplaced ?_ role
        rw [Bool.eq_false_iff]
        intro hf
        have hsome := (h.settled p hp).forgets hf
        rw [show w.system.replaced = none from hreplaced] at hsome
        cases hsome
    simp only [hstep]
    exact ⟨hkeeps.enabled, hkeeps.timing, hkeeps.bindings⟩

/-- **Only calls change flags, durations and bindings.** -/
theorem Steady.keeps (h : w.Steady) (moves : List Move)
    (hmoves : ∀ m ∈ moves, m.isCall = false) (hrun : World.run moves w = some w') :
    Keeps w.system w'.system := by
  have hkept : w'.Steady ∧ Keeps w.system w'.system :=
    run_induction (P := fun v => v.Steady ∧ Keeps w.system v.system)
      (fun hv hcall hm => ⟨hv.1.next hm, hv.2.trans (hv.1.keeps_next hcall hm)⟩)
      ⟨h, .of_hardware rfl rfl rfl⟩ moves hmoves hrun
  exact hkept.2

/-! ## When the caller is free again -/

/-- Who is free again has no worker and no cycles. -/
def Relieved (w : World) : Prop :=
  w.caller = .free → w.system.run = none ∧ w.system.cycles = 0

theorem Relieved.next (h : w.Relieved) (hsteady : w.Steady) {m : Move} (hcall : m.isCall = false)
    (hm : w.next m = some w') : w'.Relieved := by
  cases m with
  | call c => cases hcall
  | raiseStop =>
    obtain ⟨origin, -, rfl⟩ := next_raiseStop hm
    rintro ⟨⟩
  | joinWorker =>
    obtain ⟨origin, -, -, rfl⟩ := next_joinWorker hm
    intro _
    change (w.system.concludeStop origin).run = none ∧ _
    rw [hsteady.concludeStop_eq]
    exact ⟨rfl, rfl⟩
  | guest g =>
    obtain rfl := Option.some.inj hm
    exact h
  | work =>
    obtain ⟨hwork, rfl⟩ := next_work hm
    intro hfree
    rw [Watering.isWorking, Watering.point?, (h hfree).1] at hwork
    cases hwork

theorem Relieved.run (h : w.Relieved) (hsteady : w.Steady) (moves : List Move)
    (hmoves : ∀ m ∈ moves, m.isCall = false) (hrun : World.run moves w = some w') :
    w'.Relieved := by
  have hkept : w'.Steady ∧ w'.Relieved :=
    run_induction (P := fun v => v.Steady ∧ v.Relieved)
      (fun hv hcall hm => ⟨hv.1.next hm, hv.2.next hv.1 hcall hm⟩)
      ⟨hsteady, h⟩ moves hmoves hrun
  exact hkept.2

/-- A job is over, its devices are off, and nothing else has changed. -/
structure Returned (w w' : World) : Prop where
  running : w'.system.running = false
  state : w'.system.state = .disabled
  run : w'.system.run = none
  cycles : w'.system.cycles = 0
  off : ∀ role o, (w'.system.hardware.slot role).output = some o → o.active = false ∧
    w'.system.rig.chip.level? o.offset =
      some ((w'.system.hardware.slot role).polarity.level false)
  keeps : Keeps w.system w'.system

/-- **When a stop returns the job is over, and nothing else has changed.** -/
theorem Reachable.returned (h : w.Reachable) (hfree : w.caller = .free) (hjob : w.system.hasJob)
    {origin : StopOrigin} {moves : List Move} (hmoves : ∀ m ∈ moves, m.isCall = false)
    (hrun : World.run (.call (.askStop origin) :: moves) w = some w')
    (hfree' : w'.caller = .free) : w.Returned w' := by
  obtain ⟨w₁, hask, hrest⟩ := Option.bind_eq_some_iff.mp hrun
  have hreach : w'.Reachable := h.run _ hrun
  have hreach₁ : w₁.Reachable := .move h hask
  rw [World.next, hfree] at hask
  simp only [World.call, if_pos hjob] at hask
  obtain rfl := Option.some.inj hask
  have hrelieved := Relieved.run (w := { w with
    system := w.system.announceStop origin, caller := .raising origin }) (by rintro ⟨⟩)
    hreach₁.steady moves hmoves hrest hfree'
  have hnone : w'.system.point? = none := by rw [Watering.point?, hrelieved.1]; rfl
  obtain ⟨-, hidle, hdisabled⟩ := hreach.steady.alone hnone
  have hkeeps := hreach₁.steady.keeps moves hmoves hrest
  refine ⟨hidle, hdisabled, hrelieved.1, hrelieved.2, ?_, ?_⟩
  · intro role o ho
    have hlive : w'.system.hardware ∈ w'.live := List.mem_cons_self
    have hoff := hreach.orderly.off (hreach.orderly.dark hreach.steady (.inl hidle)) hlive ho
    refine ⟨hoff, ?_⟩
    rw [hreach.orderly.level hlive ho, hoff]
  · exact ⟨hkeeps.enabled, hkeeps.timing, hkeeps.bindings⟩

/-! ## A stop without interruptions -/

theorem run_append (moves more : List Move) (w : World) :
    World.run (moves ++ more) w = (World.run moves w).bind (World.run more) := by
  induction moves generalizing w with
  | nil => rfl
  | cons m rest ih =>
    change (w.next m).bind (World.run (rest ++ more)) = ((w.next m).bind (World.run rest)).bind _
    rw [Option.bind_assoc]
    exact congrArg (Option.bind _) (funext ih)

/-- A worker that is over does nothing more. -/
theorem Steady.step_of_over (h : w.Steady) (hover : w.system.isWorking = false) :
    w.system.step = w.system := by
  unfold Watering.step
  cases hp : w.system.point? with
  | none => rfl
  | some p =>
    have hpover : p.isOver = true := by
      rw [Watering.isWorking, hp] at hover
      simpa using hover
    have halive := (h.settled p hp).alive
    cases p with
    | ended =>
      change { w.system with rig := { w.system.rig with actor := .caller } } = w.system
      rw [← h.actor]
    | crashed => exact absurd rfl halive
    | _ => cases hpover

theorem Steady.steps_of_over (h : w.Steady) (hover : w.system.isWorking = false) (n : Nat) :
    w.system.steps n = w.system := by
  induction n with
  | zero => rfl
  | succ n ih => rw [Watering.steps, h.step_of_over hover, ih]

/-- The steps that a worker takes before it is over are all that it takes. -/
theorem Steady.steps_of_run (h : w'.Steady) (hover : w'.system.isWorking = false) {n k : Nat}
    (hle : n ≤ k) (hrun : World.run (List.replicate n .work) w = some w') :
    w'.system = w.system.steps k := by
  induction n generalizing w k with
  | zero =>
    obtain rfl := Option.some.inj hrun
    exact (h.steps_of_over hover k).symm
  | succ n ih =>
    obtain ⟨k, rfl⟩ := Nat.exists_eq_add_of_lt hle
    obtain ⟨w₁, hm, hrest⟩ := Option.bind_eq_some_iff.mp hrun
    obtain ⟨-, rfl⟩ := next_work hm
    exact ih (k := n + k) (Nat.le_add_right n k) hrest

/-- A worker that is left alone after a stop was raised gets to its end. -/
theorem Steady.runs_out {origin : StopOrigin} (h : w.Steady) (hc : w.caller = .waiting origin)
    {k : Nat} (hgo : w.toGo ≤ k) :
    ∃ n w', n ≤ k ∧ World.run (List.replicate n .work) w = some w' ∧
      w'.caller = .waiting origin ∧ w'.system.isWorking = false ∧
      w'.system = w.system.steps k := by
  obtain ⟨n, w', hn, hrun, ⟨hsteady, hc'⟩, hover⟩ := World.runs_out
    (P := fun v => v.Steady ∧ v.caller = .waiting origin) (g := toGo)
    (fun h hwork => by
      obtain ⟨new, hnew⟩ := h.1.hurry_next h.2 (m := .work) (by rintro ⟨⟩) (if_pos hwork)
      exact ⟨⟨hnew.steady, hnew.caller.trans h.2⟩, hnew.toGo⟩) k ⟨h, hc⟩ hgo
  exact ⟨n, w', hn, hrun, hc', hover, hsteady.steps_of_run hover hn hrun⟩

/-- **A stop of a running job returns**, after at most so many steps of the worker. -/
theorem Steady.stop_returns (h : w.Steady) (hfree : w.caller = .free) (hjob : w.system.hasJob)
    (origin : StopOrigin) : ∃ n w', n ≤ Watering.patience ∧
      World.run (.call (.askStop origin) :: .raiseStop :: (List.replicate n .work ++ [.joinWorker]))
        w = some w' ∧
      w'.caller = .free ∧ w'.system = w.system.stop origin := by
  let asked : World :=
    { w with system := w.system.announceStop origin, caller := .raising origin }
  let raised : World :=
    { asked with system := asked.system.raiseStop, caller := .waiting origin }
  have hask : w.next (.call (.askStop origin)) = some asked := by
    rw [World.next, hfree]
    exact if_pos hjob
  have hsteady : raised.Steady := (h.next hask).next (m := .raiseStop) rfl
  obtain ⟨n, last, hn, hrun, hc, hover, hsteps⟩ :=
    hsteady.runs_out rfl raised.toGo_le_patience
  refine ⟨n, { last with system := last.system.concludeStop origin, caller := .free }, hn, ?_, rfl,
    ?_⟩
  · change (w.next _).bind _ = _
    rw [hask]
    change World.run (List.replicate n .work ++ [.joinWorker]) raised = _
    rw [run_append, hrun]
    change (last.next .joinWorker).bind _ = _
    rw [World.next, hc]
    simp only [hover]
    rfl
  · rw [Watering.stop, if_pos hjob]
    exact congrArg (Watering.concludeStop origin) hsteps

/-! ## What follows -/

/-- How little may be seen of the worker of `w` once a stop is pending. -/
structure ShowsLittle (w : World) (new : List Mark) : Prop where
  /-- No iteration begins. -/
  began : .began ∉ new
  /-- Devices are switched on at most once more, if the iteration was past its first test. -/
  activating : new.count .activating ≤ (w.isAt Point.mayActivate).toNat
  /-- At most one more cycle is counted, if its deactivation wait was over. -/
  counted : new.countP Mark.completes ≤ (w.isAt Point.counts).toNat
  /-- At most one wait lasts its length, and it is a gap. -/
  waits : new.countP Mark.isFullWait ≤ 1
  gaps : ∀ (which : Interval) (ms : UInt64) (raised : Bool),
    .waited which ms raised true ∈ new → which = .separation

/-- What no budget allows is not shown. -/
theorem Hurries.not_mem {steps : Nat} {new : List Mark} (h : w.Hurries w' steps new)
    {counts : Mark → Bool} (hnone : Affords counts fun _ => false) {m : Mark} (hm : m ∈ new) :
    counts m = false := by
  have hnever : w.isAt (fun _ => false) = false := by
    unfold isAt
    cases w.system.point? <;> rfl
  have hle := Nat.le_trans (Nat.le_add_right _ _) (h.shown _ _ hnone)
  rw [hnever] at hle
  exact Bool.eq_false_iff.mpr (List.countP_eq_zero.mp (Nat.le_zero.mp hle) m hm)

theorem Hurries.showsLittle {steps : Nat} {new : List Mark} (h : w.Hurries w' steps new) :
    w.ShowsLittle new where
  began := by
    intro hmem
    cases h.not_mem affords_began hmem
  activating := Nat.le_trans (Nat.le_add_right _ _) (h.shown _ _ affords_activating)
  counted := Nat.le_trans (Nat.le_add_right _ _) (h.shown _ _ affords_completes)
  waits := Nat.le_trans (Nat.le_trans (Nat.le_add_right _ _) (h.shown _ _ affords_fullWait))
    (Bool.toNat_le _)
  gaps := by
    intro which ms raised hmem
    simpa [Mark.isLongWait] using h.not_mem affords_longWait hmem

/-- A stop without a job is over at once, and says so at most. -/
theorem Steady.stop_declined (h : w.Steady) (hfree : w.caller = .free)
    (hjob : w.system.hasJob = false) (origin : StopOrigin) :
    (w.system.stop origin).status = w.system.status ∧
    w.next (.call (.askStop origin)) = some { w with system := w.system.stop origin } ∧
    w.system.stop origin = rejournal { w.system with run := none }
      (w.system.rig.journal ++ if origin = .teardown then [] else
        [(.caller, .log .warn ("Watering" ++ ": " ++ origin.ignored)),
          (.caller, .emitted (.notice .warn origin.ignored))]) := by
  have hnot : ¬ w.system.hasJob = true := by
    rw [hjob]
    exact Bool.false_ne_true
  have hstop : w.next (.call (.askStop origin)) =
      some { w with system := w.system.stop origin } := by
    rw [World.next, hfree]
    change (if w.system.hasJob then _ else _) = _
    rw [if_neg hnot, Watering.stop, if_neg hnot, hfree]
  have heq : w.system.stop origin = rejournal { w.system with run := none }
      (w.system.rig.journal ++ if origin.reportsIdle then
        [(.caller, .log .warn ("Watering" ++ ": " ++ origin.ignored)),
          (.caller, .emitted (.notice .warn origin.ignored))]
        else []) :=
    congrArg World.system
      (Option.some.inj (hstop.symm.trans (h.next_declined hfree hjob origin)))
  refine ⟨?_, hstop, ?_⟩
  · rw [heq]
    rfl
  · rw [heq]
    cases origin <;> rfl

/-- The caller can always go on with a stop. -/
theorem next_of_waiting {origin : StopOrigin} (hc : w.caller = .waiting origin) :
    if w.system.isWorking then (w.next .work).isSome else (w.next .joinWorker).isSome := by
  split
  · next hwork =>
    rw [World.next, if_pos hwork]
    rfl
  · next hover =>
    rw [World.next, hc]
    simp [hover]

/-- What it means that a world can be stopped. -/
structure StopsInTime (w : World) : Prop where
  /-- While the caller waits for a stopped worker, the worker takes a bounded number of steps and
  shows little, whatever third parties do. -/
  hurries : ∀ (origin : StopOrigin) (moves : List Move) (w' : World),
    w.caller = .waiting origin → .joinWorker ∉ moves → World.run moves w = some w' →
      moves.countP Move.isWork ≤ Watering.patience ∧ w'.caller = .waiting origin ∧
        ∃ new, w'.trace = w.trace ++ new ∧ w.ShowsLittle new
  /-- The caller can always go on: raise the signal, wait for a step, or take leave. -/
  goesOn : ∀ origin : StopOrigin,
    (w.caller = .raising origin → (w.next .raiseStop).isSome) ∧
    (w.caller = .waiting origin → if w.system.isWorking then (w.next .work).isSome
      else (w.next .joinWorker).isSome)
  /-- When the stop of a running job is over, so is the job, its devices are off, and nothing else
  has changed. -/
  returned : ∀ (origin : StopOrigin) (moves : List Move) (w' : World),
    w.caller = .free → w.system.hasJob → (∀ m ∈ moves, m.isCall = false) →
      World.run (.call (.askStop origin) :: moves) w = some w' → w'.caller = .free →
        w.Returned w'
  /-- A stop without interruptions is `Watering.stop`. -/
  returns : ∀ origin : StopOrigin, w.caller = .free → w.system.hasJob →
    ∃ n w', n ≤ Watering.patience ∧
      World.run (.call (.askStop origin) :: .raiseStop :: (List.replicate n .work ++ [.joinWorker]))
        w = some w' ∧ w'.caller = .free ∧ w'.system = w.system.stop origin
  /-- A stop without a job leaves one warning, or none, and drops a worker that is over. -/
  declined : ∀ origin : StopOrigin, w.caller = .free → w.system.hasJob = false →
    w.system.isWorking = false ∧
    (w.system.stop origin).status = w.system.status ∧
    w.next (.call (.askStop origin)) = some { w with system := w.system.stop origin } ∧
    w.system.stop origin = rejournal { w.system with run := none }
      (w.system.rig.journal ++ if origin = .teardown then [] else
        [(.caller, .log .warn ("Watering" ++ ": " ++ origin.ignored)),
          (.caller, .emitted (.notice .warn origin.ignored))])
  /-- The origin of a stop shows in texts only. -/
  alike : ∀ (o o' : StopOrigin) (moves : List Move) (w₁ : World), w.caller = .free →
    (w.system.hasJob = true ∨ o.reportsIdle = o'.reportsIdle) →
      (∀ m ∈ moves, m.isCall = false) → World.run (.call (.askStop o) :: moves) w = some w₁ →
        ∃ w₂, World.run (.call (.askStop o') :: moves) w = some w₂ ∧ Alike o o' w₁ w₂

/-- **Every stop is in time**, in any reachable world. -/
theorem stops_in_time (h : w.Reachable) : w.StopsInTime where
  hurries := by
    intro origin moves w' hc hmoves hrun
    obtain ⟨new, hnew⟩ := h.steady.hurry hc moves hmoves hrun
    refine ⟨?_, hnew.caller.trans hc, new, hnew.trace, hnew.showsLittle⟩
    exact Nat.le_trans (Nat.le_trans (Nat.le_add_right _ _) hnew.toGo) w.toGo_le_patience
  goesOn := by
    intro origin
    refine ⟨fun hc => ?_, next_of_waiting⟩
    rw [World.next, hc]
    rfl
  returned := fun _ _ _ hfree hjob hmoves hrun hfree' =>
    h.returned hfree hjob hmoves hrun hfree'
  returns := fun origin hfree hjob => h.steady.stop_returns hfree hjob origin
  declined := fun origin hfree hjob =>
    ⟨h.steady.not_working_of_no_job hjob, h.steady.stop_declined hfree hjob origin⟩
  alike := by
    intro o o' moves w₁ hfree hsame hmoves hrun
    obtain ⟨v₁, hask, hrest⟩ := Option.bind_eq_some_iff.mp hrun
    obtain ⟨v, v₂, hv, hask₂, halike⟩ := h.steady.alike_asked hfree hsame
    obtain rfl := Option.some.inj (hv.symm.trans hask)
    obtain ⟨w₂, hrun₂, hw⟩ := halike.run (h.steady.next hv) (h.steady.next hask₂) moves hmoves hrest
    exact ⟨w₂, Option.bind_eq_some_iff.mpr ⟨v₂, hask₂, hrun₂⟩, hw⟩

/-- A stop comes when an iteration has just passed its first test. -/
theorem in_time_after_first_test : ∃ w : World,
    after ⟨⟨17, .activeHigh⟩, ⟨27, .activeLow⟩⟩
      [.call (.start none), .work, .work, .call (.askStop .shutdown), .raiseStop] = some w ∧
    (w.system.stopPending && w.isAt Point.mayActivate) = true ∧ w.StopsInTime := by
  obtain ⟨w, hw, hfacts⟩ := (Option.any_eq_true
    (fun w : World => w.system.stopPending && w.isAt Point.mayActivate) _).mp
    (show Option.any _ (after ⟨⟨17, .activeHigh⟩, ⟨27, .activeLow⟩⟩
      [.call (.start none), .work, .work, .call (.askStop .shutdown), .raiseStop]) = true by rfl)
  exact ⟨w, hw, hfacts, stops_in_time (reachable_of_after hw)⟩

end World

end Irrigation
