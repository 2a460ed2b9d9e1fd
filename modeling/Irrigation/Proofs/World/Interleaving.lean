import Irrigation.Proofs.Worker.Marks

/-!
# Interleavings

A `World` is a watering system and everyone who acts on it: a caller, the worker of the job, and
third parties who use lines of the same chip. `World.next` is one move of one of them, and
`World.Reachable` are the worlds that any order of moves leads to from a freshly wired system.

A call of the caller is one move if nothing the worker does can come between its parts. A stop is
three: the caller asks for it, raises the signal, and takes leave of the worker when it is over;
meanwhile the caller does nothing else. A move of lines waits for the worker to let go of them, so
it is only made then. Controllers are built first and installed later: until then they are spares.
-/

namespace Irrigation

/-! ## Third parties -/

/-- What third parties do with the lines of the chip. -/
inductive GuestMove
  | request (who : String) (offset : Offset) (direction : Direction) (polarity : Polarity)
  | drive (i : Nat) (on : Bool)
  | release (offsets : List Offset)

/-- The rig and the outputs of third parties after one of their moves. They drive and release
lines of their own only. -/
def GuestMove.apply : GuestMove → Rig × List Output → Rig × List Output
  | .request who n d p, (r, held) =>
    match r.request who n d p with
    | (.ok o, r) => (r, o :: held)
    | (.error _, r) => (r, held)
  | .drive i on, (r, held) =>
    match held[i]? with
    | some o =>
      let (o, r) := o.drive on r
      (r, held.set i o)
    | none => (r, held)
  | .release offsets, (r, held) =>
    if offsets.all fun n => (held.map Output.offset).contains n then
      match r.release offsets with
      | (true, r) => (r, held.filter fun o => !offsets.contains o.offset)
      | (false, r) => (r, held)
    else (r, held)

/-! ## Worlds -/

/-- What the caller is in the middle of. -/
inductive Caller
  | free
  /-- The caller found a job to stop and is about to raise the signal. -/
  | raising (origin : StopOrigin)
  /-- The caller raised the signal and waits for the worker to be over. -/
  | waiting (origin : StopOrigin)
  deriving DecidableEq, Repr

/-- A system, the controllers that wait to be installed, the outputs of third parties, and the
marks left so far. -/
structure World where
  system : Watering
  caller : Caller := .free
  spares : List Controller := []
  guests : List Output := []
  trace : List Mark := []

/-- What a caller who is free can do. -/
inductive Call
  | start (flow : Option String)
  | askStop (origin : StopOrigin)
  | enable (role : Role) (on : Bool)
  | setDuration (i : Interval) (ms : UInt64)
  | replaceTiming (t : Timing)
  | rebind (wanted : Each (Option Offset))
  /-- A controller is built. -/
  | build (pins : Each Pin)
  /-- A spare takes the place of the current controller. -/
  | install (i : Nat)
  /-- A spare is given up. -/
  | discard (i : Nat)
  | closeChip
  /-- The caller writes a log record, a notice or a text. -/
  | say (e : Effect)

/-- One move of one party. -/
inductive Move
  | work
  | call (c : Call)
  | raiseStop
  | joinWorker
  | guest (g : GuestMove)

namespace Watering

/-- Whether the worker keeps the caller from the lines. -/
def linesHeld (s : Watering) : Bool := (s.point?.map Point.holdsLock).getD false

/-- What is seen of the worker's next step. -/
def marks (s : Watering) : List Mark := (s.point?.map s.marksAt).getD []

end Watering

namespace World

/-- The world after a call; `none` if the call has to wait. -/
def call (w : World) : Call → Option World
  | .start flow => some { w with
      system := (w.system.start flow).2
      trace := if (w.system.start flow).1 then w.trace ++ [.told .started] else w.trace }
  | .askStop origin =>
    if w.system.hasJob then
      some { w with system := w.system.announceStop origin, caller := .raising origin }
    else some { w with system := w.system.declineStop origin }
  | .enable role on => some { w with system := w.system.enable role on }
  | .setDuration i ms => some { w with system := w.system.setDuration i ms }
  | .replaceTiming t => some { w with system := w.system.replaceTiming t }
  | .rebind wanted =>
    if w.system.linesHeld then none
    else some { w with system := (w.system.rebind wanted).2 }
  | .build pins =>
    match Controller.wire pins w.system.rig with
    | (.error _, rig) => some { w with system := { w.system with rig } }
    | (.ok c, rig) => some { w with system := { w.system with rig }, spares := c :: w.spares }
  | .install i =>
    match w.spares[i]? with
    | some c =>
      if w.system.linesHeld && !w.system.hardwareInUse then none
      else some { w with system := w.system.replaceHardware c, spares := w.spares.eraseIdx i }
    | none => none
  | .discard i =>
    match w.spares[i]? with
    | some c => some { w with
        system := { w.system with rig := (c.release w.system.rig).2 }
        spares := w.spares.eraseIdx i }
    | none => none
  | .closeChip => some { w with system := { w.system with rig := w.system.rig.close } }
  | .say e => if e.isDeed then none else some { w with system := record w.system e }

/-- The world after a move; `none` if the move cannot be made now. -/
def next (w : World) : Move → Option World
  | .work =>
    if w.system.isWorking then
      some { w with system := w.system.step, trace := w.trace ++ w.system.marks }
    else none
  | .call c =>
    match w.caller with
    | .free => w.call c
    | _ => none
  | .raiseStop =>
    match w.caller with
    | .raising origin => some { w with system := w.system.raiseStop, caller := .waiting origin }
    | _ => none
  | .joinWorker =>
    match w.caller with
    | .waiting origin =>
      if w.system.isWorking then none
      else some { w with system := w.system.concludeStop origin, caller := .free }
    | _ => none
  | .guest g =>
    let (rig, guests) := g.apply (w.system.rig, w.guests)
    some { w with system := { w.system with rig }, guests }

/-! ## What a move takes

A move that was made says what was so before, and what is so after it. -/

section Moves

variable {w w' : World}

theorem next_work (h : w.next .work = some w') : w.system.isWorking = true ∧
    w' = { w with system := w.system.step, trace := w.trace ++ w.system.marks } := by
  rw [next] at h
  split at h
  · next hwork => exact ⟨hwork, (Option.some.inj h).symm⟩
  · cases h

theorem next_call {c : Call} (h : w.next (.call c) = some w') :
    w.caller = .free ∧ w.call c = some w' := by
  rw [next] at h
  split at h
  · next hfree => exact ⟨hfree, h⟩
  · cases h

theorem next_raiseStop (h : w.next .raiseStop = some w') :
    ∃ origin, w.caller = .raising origin ∧
      w' = { w with system := w.system.raiseStop, caller := .waiting origin } := by
  rw [next] at h
  split at h
  · next origin hraising => exact ⟨origin, hraising, (Option.some.inj h).symm⟩
  · cases h

theorem next_joinWorker (h : w.next .joinWorker = some w') :
    ∃ origin, w.caller = .waiting origin ∧ w.system.isWorking = false ∧
      w' = { w with system := w.system.concludeStop origin, caller := .free } := by
  rw [next] at h
  split at h
  · next origin hwaiting =>
    split at h
    · cases h
    · next hover =>
      exact ⟨origin, hwaiting, Bool.eq_false_iff.mpr hover, (Option.some.inj h).symm⟩
  · cases h

theorem call_askStop {origin : StopOrigin} (h : w.call (.askStop origin) = some w') :
    (w.system.hasJob = true ∧
      w' = { w with system := w.system.announceStop origin, caller := .raising origin }) ∨
    (w.system.hasJob = false ∧ w' = { w with system := w.system.declineStop origin }) := by
  rw [call] at h
  split at h
  · next hjob => exact .inl ⟨hjob, (Option.some.inj h).symm⟩
  · next hjob => exact .inr ⟨Bool.eq_false_iff.mpr hjob, (Option.some.inj h).symm⟩

theorem call_rebind {wanted : Each (Option Offset)} (h : w.call (.rebind wanted) = some w') :
    w.system.linesHeld = false ∧ w' = { w with system := (w.system.rebind wanted).2 } := by
  rw [call] at h
  split at h
  · cases h
  · next hfree => exact ⟨Bool.eq_false_iff.mpr hfree, (Option.some.inj h).symm⟩

theorem call_install {i : Nat} (h : w.call (.install i) = some w') :
    ∃ c, w.spares[i]? = some c ∧
      (w.system.hardwareInUse = true ∨ w.system.linesHeld = false) ∧
      w' = { w with system := w.system.replaceHardware c, spares := w.spares.eraseIdx i } := by
  simp only [call] at h
  split at h
  · next c hspare =>
    split at h
    · cases h
    · next hwait =>
      refine ⟨c, hspare, ?_, (Option.some.inj h).symm⟩
      cases huse : w.system.hardwareInUse with
      | true => exact .inl rfl
      | false =>
        rw [huse] at hwait
        exact .inr (by simpa using hwait)
  · cases h

theorem call_discard {i : Nat} (h : w.call (.discard i) = some w') :
    ∃ c, w.spares[i]? = some c ∧ w' = { w with
      system := { w.system with rig := (c.release w.system.rig).2 }
      spares := w.spares.eraseIdx i } := by
  simp only [call] at h
  split at h
  · next c hspare => exact ⟨c, hspare, (Option.some.inj h).symm⟩
  · cases h

theorem call_say {e : Effect} (h : w.call (.say e) = some w') :
    e.isDeed = false ∧ w' = { w with system := record w.system e } := by
  rw [call] at h
  split at h
  · cases h
  · next hdeed => exact ⟨Bool.eq_false_iff.mpr hdeed, (Option.some.inj h).symm⟩

end Moves

/-- A result that is an option's value is no error. -/
theorem eq_ok_of_toOption {ε α : Type} {e : Except ε α} {a : α} (h : e.toOption = some a) :
    e = .ok a := by
  cases e with
  | error _ => cases h
  | ok _ => exact congrArg Except.ok (Option.some.inj h)

/-- Several moves, one after the other. -/
def run : List Move → World → Option World
  | [], w => some w
  | m :: rest, w => (w.next m).bind (run rest)

/-- What every move of some kind keeps, a run of such moves keeps. -/
theorem run_induction {P : World → Prop} {A : Move → Prop}
    (hnext : ∀ {w w' : World} {m : Move}, P w → A m → w.next m = some w' → P w')
    {w w' : World} (h : P w) (moves : List Move) (hmoves : ∀ m ∈ moves, A m)
    (hrun : run moves w = some w') : P w' := by
  induction moves generalizing w with
  | nil =>
    obtain rfl := Option.some.inj hrun
    exact h
  | cons m rest ih =>
    obtain ⟨w₁, hm, hrest⟩ := Option.bind_eq_some_iff.mp hrun
    rw [List.forall_mem_cons] at hmoves
    exact ih (hnext h hmoves.1 hm) hmoves.2 hrest

/-- The worlds that moves lead to from a wired system. Third parties may have lines before. -/
inductive Reachable : World → Prop
  | wired {path : String} {lines : Nat} {pins : Each Pin} {timing : Timing} {enabled : Each Bool}
      {s : Watering} (before : List GuestMove) {rig : Rig} {guests : List Output}
      (hbefore : before.foldl (fun x g => g.apply x) (Rig.openChip path lines, []) = (rig, guests))
      (hwired : Watering.wire rig pins timing enabled = .ok s) :
      Reachable { system := s, guests }
  | move {w w' : World} {m : Move} (h : Reachable w) (hm : w.next m = some w') : Reachable w'

theorem Reachable.run {w w' : World} (h : w.Reachable) (moves : List Move)
    (hrun : World.run moves w = some w') : w'.Reachable :=
  run_induction (A := fun _ => True) (fun h _ hm => .move h hm) h moves (fun _ _ => trivial) hrun

/-- The world that moves lead to from a system with both devices enabled, wired on a fresh chip
that nobody else uses. -/
def after (pins : Each Pin) (moves : List Move) : Option World :=
  (Watering.wire (Rig.openChip "gpiochip0" 54) pins ⟨3000, 4000, 500⟩ (.both true)).toOption.bind
    fun system => run moves { system }

theorem reachable_of_after {pins : Each Pin} {moves : List Move} {w : World}
    (h : after pins moves = some w) : w.Reachable := by
  obtain ⟨s, hs, hrun⟩ := Option.bind_eq_some_iff.mp h
  exact (Reachable.wired [] rfl (eq_ok_of_toOption hs)).run moves hrun

end World

end Irrigation
