import Irrigation.Proofs.Worker.Memory
import Irrigation.Proofs.World.Job
import Mathlib.Data.List.Forall2

/-!
# Who asks for a stop

The origin of a stop shows in texts only. Two worlds that differ in the origin of a stop and in the
journal entries that name it (`World.Alike`) make the same moves and stay so, until the caller makes
another call (`Alike.run`).
-/

namespace Irrigation

namespace StopOrigin

/-- What the log says when a stop of a running job begins. -/
def requested (o : StopOrigin) : Effect :=
  .log .info s!"Watering: {o.label} requested, waiting for the worker"

/-- What the log says when it is over. -/
def completed (o : StopOrigin) : Effect := .log .info s!"Watering: {o.label} complete"

/-- What is said of a stop without a job. -/
def ignored (o : StopOrigin) : String := s!"{o.label} ignored, watering job is not running"

/-- Entries that differ at most in the origin that they name. -/
inductive Renames (o o' : StopOrigin) : Effect → Effect → Prop
  | same (e : Effect) : Renames o o' e e
  | requested : Renames o o' o.requested o'.requested
  | completed : Renames o o' o.completed o'.completed
  | logged : Renames o o' (.log .warn ("Watering" ++ ": " ++ o.ignored))
      (.log .warn ("Watering" ++ ": " ++ o'.ignored))
  | noticed :
      Renames o o' (.emitted (.notice .warn o.ignored)) (.emitted (.notice .warn o'.ignored))

/-- Journals that differ at most in the origin that their entries name. -/
def Retells (o o' : StopOrigin) (journal journal' : List (Actor × Effect)) : Prop :=
  List.Forall₂ (fun d d' => d.1 = d'.1 ∧ o.Renames o' d.2 d'.2) journal journal'

variable {o o' : StopOrigin}

theorem Retells.refl (journal : List (Actor × Effect)) : o.Retells o' journal journal :=
  List.forall₂_same.mpr fun d _ => ⟨rfl, .same d.2⟩

theorem Retells.append {journal journal' new new' : List (Actor × Effect)}
    (h : o.Retells o' journal journal') (hnew : o.Retells o' new new') :
    o.Retells o' (journal ++ new) (journal' ++ new') :=
  List.rel_append h hnew

theorem Retells.entry (a : Actor) {e e' : Effect} (h : o.Renames o' e e') :
    o.Retells o' [(a, e)] [(a, e')] :=
  .cons ⟨rfl, h⟩ .nil

end StopOrigin

/-- Callers in the same part of a stop. -/
inductive Caller.Renames (o o' : StopOrigin) : Caller → Caller → Prop
  | free : Renames o o' .free .free
  | raising : Renames o o' (.raising o) (.raising o')
  | waiting : Renames o o' (.waiting o) (.waiting o')

/-- Whether a move is a call of a free caller. -/
def Move.isCall : Move → Bool
  | .call _ => true
  | _ => false

/-- Third parties do not read the journal. -/
theorem GuestMove.apply_prefixed (g : GuestMove) (entries : List (Actor × Effect)) (r : Rig)
    (held : List Output) : g.apply (r.prefixed entries, held) =
      ((g.apply (r, held)).1.prefixed entries, (g.apply (r, held)).2) := by
  cases g with
  | request who n d p =>
    simp only [apply, Rig.request_prefixed]
    rcases r.request who n d p with ⟨_ | _, r'⟩ <;> rfl
  | drive i on =>
    simp only [apply]
    cases held[i]? with
    | none => rfl
    | some o =>
      simp only [(Rig.carries_prefixed entries).drive]
      rfl
  | release offsets =>
    simp only [apply]
    split
    · rw [Rig.release_prefixed]
      rcases r.release offsets with ⟨_ | _, r'⟩ <;> rfl
    · rfl

namespace World

variable {o o' : StopOrigin} {w w₁ w₂ w₁' : World}

/-- Worlds that differ in the origin of a stop and in the entries that name it. -/
structure Alike (o o' : StopOrigin) (w₁ w₂ : World) : Prop where
  system : w₂.system =
    { w₁.system with rig := { w₁.system.rig with journal := w₂.system.rig.journal } }
  journal : o.Retells o' w₁.system.rig.journal w₂.system.rig.journal
  caller : Caller.Renames o o' w₁.caller w₂.caller
  spares : w₂.spares = w₁.spares
  guests : w₂.guests = w₁.guests
  trace : w₂.trace = w₁.trace

/-- The system with another journal. -/
def rejournal (s : Watering) (journal : List (Actor × Effect)) : Watering :=
  { s with rig := { s.rig with journal } }

section Build

variable {caller caller' : Caller} {spares : List Controller} {guests : List Output}
  {trace : List Mark} (hc : Caller.Renames o o' caller caller')
include hc

theorem Alike.of_journals (s : Watering) {journal journal' : List (Actor × Effect)}
    (h : o.Retells o' journal journal') :
    Alike o o' ⟨rejournal s journal, caller, spares, guests, trace⟩
      ⟨rejournal s journal', caller', spares, guests, trace⟩ :=
  ⟨rfl, h, hc, rfl, rfl, rfl⟩

theorem Alike.of_prefixed (s : Watering) {journal journal' : List (Actor × Effect)}
    (h : o.Retells o' journal journal') :
    Alike o o' ⟨s.prefixed journal, caller, spares, guests, trace⟩
      ⟨s.prefixed journal', caller', spares, guests, trace⟩ :=
  ⟨rfl, h.append (.refl _), hc, rfl, rfl, rfl⟩

end Build

theorem prefixed_rejournal (s : Watering) :
    s = (rejournal s []).prefixed s.rig.journal :=
  congrArg (rejournal s) (List.append_nil _).symm

/-- What the one world can do the other can do too. -/
theorem Alike.next (h : Alike o o' w₁ w₂) (hsteady₁ : w₁.Steady) (hsteady₂ : w₂.Steady) {m : Move}
    (hcall : m.isCall = false) (hm : w₁.next m = some w₁') :
    ∃ w₂', w₂.next m = some w₂' ∧ Alike o o' w₁' w₂' := by
  obtain ⟨s₁, caller₁, _, _, _⟩ := w₁
  obtain ⟨s₂, caller₂, spares, guests, trace⟩ := w₂
  obtain ⟨hs, hjournal, hc, rfl, rfl, rfl⟩ := h
  replace hs : s₂ = rejournal s₁ s₂.rig.journal := hs
  -- The two systems are one system with two journals in front.
  have hs₁ : s₁ = (rejournal s₁ []).prefixed s₁.rig.journal := prefixed_rejournal s₁
  have hs₂ : s₂ = (rejournal s₁ []).prefixed s₂.rig.journal := by
    rw [show rejournal s₁ [] = rejournal s₂ [] by rw [hs]; rfl]
    exact prefixed_rejournal s₂
  have hsafe : (rejournal s₁ []).rig.faults.deadlyLine = none := by
    change s₁.rig.faults.deadlyLine = none
    rw [show s₁.rig.faults = {} from hsteady₁.faults]
  cases m with
  | call c => cases hcall
  | work =>
    obtain ⟨hwork, rfl⟩ := next_work hm
    have hwork₂ : s₂.isWorking = true := by
      rw [hs₂]
      exact hwork
    refine ⟨_, if_pos hwork₂, ?_⟩
    have hstep₁ : s₁.step = (rejournal s₁ []).step.prefixed s₁.rig.journal := by
      rw [← Watering.step_prefixed _ hsafe, ← hs₁]
    have hstep₂ : s₂.step = (rejournal s₁ []).step.prefixed s₂.rig.journal := by
      rw [← Watering.step_prefixed _ hsafe, ← hs₂]
    have hmarks : s₂.marks = s₁.marks := by
      rw [hs₂]
      rfl
    simp only [hstep₁, hstep₂, hmarks]
    exact .of_prefixed hc _ hjournal
  | raiseStop =>
    cases hc with
    | free => cases hm
    | raising =>
      obtain rfl := Option.some.inj hm
      refine ⟨_, rfl, ?_⟩
      rw [hs]
      exact .of_journals .waiting s₁.raiseStop hjournal
    | waiting => cases hm
  | joinWorker =>
    cases hc with
    | free => cases hm
    | raising => cases hm
    | waiting =>
      obtain ⟨origin, ⟨⟩, hover, rfl⟩ := next_joinWorker hm
      have hover₂ : ¬ s₂.isWorking = true := by
        rw [hs₂]
        exact Bool.eq_false_iff.mp hover
      refine ⟨_, if_neg hover₂, ?_⟩
      rw [hsteady₁.concludeStop_eq o, hsteady₂.concludeStop_eq o', hs]
      exact .of_journals .free { s₁ with run := none, cycles := 0 }
        (hjournal.append (.entry s₁.rig.actor .completed))
  | guest g =>
    obtain rfl := Option.some.inj hm
    refine ⟨_, rfl, ?_⟩
    have hg₁ := g.apply_prefixed s₁.rig.journal (rejournal s₁ []).rig guests
    have hg₂ := g.apply_prefixed s₂.rig.journal (rejournal s₁ []).rig guests
    have hr₁ : s₁.rig = (rejournal s₁ []).rig.prefixed s₁.rig.journal :=
      congrArg Watering.rig hs₁
    have hr₂ : s₂.rig = (rejournal s₁ []).rig.prefixed s₂.rig.journal :=
      congrArg Watering.rig hs₂
    rw [← hr₁] at hg₁
    rw [← hr₂] at hg₂
    change Alike o o'
      ⟨{ s₁ with rig := (g.apply (s₁.rig, guests)).1 }, caller₁, spares,
        (g.apply (s₁.rig, guests)).2, trace⟩
      ⟨{ s₂ with rig := (g.apply (s₂.rig, guests)).1 }, caller₂, spares,
        (g.apply (s₂.rig, guests)).2, trace⟩
    rw [hg₁, hg₂, hs]
    exact .of_prefixed hc { s₁ with rig := (g.apply ((rejournal s₁ []).rig, guests)).1 } hjournal

/-- **The origin shows in texts only**, until the caller makes another call. -/
theorem Alike.run (h : Alike o o' w₁ w₂) (hsteady₁ : w₁.Steady) (hsteady₂ : w₂.Steady)
    (moves : List Move) (hmoves : ∀ m ∈ moves, m.isCall = false)
    (hrun : World.run moves w₁ = some w₁') :
    ∃ w₂', World.run moves w₂ = some w₂' ∧ Alike o o' w₁' w₂' := by
  induction moves generalizing w₁ w₂ with
  | nil =>
    obtain rfl := Option.some.inj hrun
    exact ⟨w₂, rfl, h⟩
  | cons m rest ih =>
    obtain ⟨v₁, hm₁, hrest⟩ := Option.bind_eq_some_iff.mp hrun
    obtain ⟨v₂, hm₂, hv⟩ := h.next hsteady₁ hsteady₂ (hmoves m List.mem_cons_self) hm₁
    obtain ⟨w₂', hrun₂, hw⟩ := ih hv (hsteady₁.next hm₁) (hsteady₂.next hm₂)
      (fun m' hm' => hmoves m' (List.mem_cons_of_mem _ hm')) hrest
    exact ⟨w₂', Option.bind_eq_some_iff.mpr ⟨v₂, hm₂, hrun₂⟩, hw⟩

/-- A stop without a job drops a worker that is over, and leaves a message. -/
theorem Steady.next_declined (h : w.Steady) (hfree : w.caller = .free)
    (hjob : w.system.hasJob = false) (o : StopOrigin) :
    w.next (.call (.askStop o)) = some { w with
      system := rejournal { w.system with run := none }
        (w.system.rig.journal ++ if o.reportsIdle then
          [(.caller, .log .warn ("Watering" ++ ": " ++ o.ignored)),
            (.caller, .emitted (.notice .warn o.ignored))]
          else []) } := by
  have hcall : w.next (.call (.askStop o)) = w.call (.askStop o) := by rw [World.next, hfree]
  rw [hcall, World.call, if_neg (by rw [hjob]; exact Bool.false_ne_true), h.declineStop_eq]
  cases o.reportsIdle with
  | true =>
    rw [if_pos rfl, if_pos rfl, ← h.actor]
    exact congrArg (fun journal => some { w with
      system := rejournal { w.system with run := none } journal })
      (List.append_assoc w.system.rig.journal [_] [_])
  | false =>
    rw [if_neg Bool.false_ne_true, if_neg Bool.false_ne_true, List.append_nil]
    rfl

/-- Two stops begin alike, unless only one of them is worth a message. -/
theorem Steady.alike_asked (h : w.Steady) (hfree : w.caller = .free)
    (hsame : w.system.hasJob = true ∨ o.reportsIdle = o'.reportsIdle) :
    ∃ w₁ w₂, w.next (.call (.askStop o)) = some w₁ ∧ w.next (.call (.askStop o')) = some w₂ ∧
      Alike o o' w₁ w₂ := by
  cases hjob : w.system.hasJob with
  | true =>
    have hnext : ∀ o : StopOrigin, w.next (.call (.askStop o)) = some { w with
        system := rejournal w.system (w.system.rig.journal ++ [(w.system.rig.actor, o.requested)])
        caller := .raising o } := by
      intro o
      rw [World.next, hfree]
      exact if_pos hjob
    refine ⟨_, _, hnext o, hnext o', ?_⟩
    exact .of_journals .raising _ ((StopOrigin.Retells.refl _).append (.entry _ .requested))
  | false =>
    have hreports := hsame.resolve_left (by rw [hjob]; exact Bool.false_ne_true)
    refine ⟨_, _, h.next_declined hfree hjob o, h.next_declined hfree hjob o', ?_⟩
    rw [← hreports, hfree]
    refine .of_journals .free _ ((StopOrigin.Retells.refl _).append ?_)
    split
    · exact .cons ⟨rfl, .logged⟩ (StopOrigin.Retells.entry _ .noticed)
    · exact .nil

end World

end Irrigation
