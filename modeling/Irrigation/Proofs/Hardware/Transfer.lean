import Irrigation.Controller

/-!
# Maps between boards

The controller is written for any board, so whatever it does is carried along by a map of boards:
a function `f` between two kinds of boards that commutes with the journal, the writes, the
requests and the releases (`Carries f`). Then every operation of a controller gives the same
result on both boards, and what becomes of the one board is mapped to what becomes of the other
(`Carries.unbind`, `Carries.rebind` and so on).

Two maps are used. `Rig.prefixed` puts entries in front of a journal, so that nothing a controller
does depends on what was journaled before; the worker's steps inherit that (`Worker.Memory`).
`Audit.rig` forgets the levels at which lines were released, so that these can be looked at
without changing what is done.
-/

namespace Irrigation

/-- A function between boards that commutes with everything a board can do. -/
structure Carries {σ τ : Type} [Board σ] [Board τ] (f : σ → τ) : Prop where
  record : ∀ s e, f (record s e) = record (f s) e
  write : ∀ s offset up,
    Lines.write (f s) offset up = (Lines.write s offset up).map id f
  request : ∀ s who offset d p,
    Board.request (f s) who offset d p = (Board.request s who offset d p).map id f
  release : ∀ s offsets, Board.release (f s) offsets = (Board.release s offsets).map id f

namespace Carries

variable {σ τ : Type} [Board σ] [Board τ] {f : σ → τ} (hf : Carries f)
include hf

/-! ## Journals and outputs -/

theorem log (l : Level) (text : String) (s : σ) :
    Irrigation.log l text (f s) = f (Irrigation.log l text s) := (hf.record s _).symm

theorem report (l : Level) (message : String) (s : σ) :
    Controller.report l message (f s) = f (Controller.report l message s) := by
  simp only [Controller.report, Irrigation.report, notify, hf.record, hf.log]

theorem drive (o : Output) (on : Bool) (s : σ) :
    o.drive on (f s) = (o.drive on s).map id f := by
  unfold Output.drive
  split
  · simp only [hf.log, Prod.map, id]
  · rw [hf.write]
    rcases Lines.write s o.offset (o.polarity.level on) with ⟨_ | _, s'⟩
    · simp only [Prod.map, id, hf.log]
    · rfl

theorem switchOutput (o : Output) (on : Bool) (s : σ) :
    o.switch on (f s) = (o.switch on s).map id f := by
  rw [Output.switch, ← hf.record, hf.drive, Output.switch]

/-! ## Controllers -/

theorem requestPin (pin : Pin) (s : σ) :
    Controller.requestPin pin (f s) = (Controller.requestPin pin s).map id f :=
  hf.request ..

theorem wire (pins : Each Pin) (s : σ) :
    Controller.wire pins (f s) = (Controller.wire pins s).map id f := by
  unfold Controller.wire
  split
  · rfl
  · rw [hf.requestPin]
    rcases Controller.requestPin pins.valve s with ⟨_ | valve, s₁⟩
    · rfl
    · simp only [Prod.map, id, hf.requestPin]
      rcases Controller.requestPin pins.pump s₁ with ⟨_ | pump, s₂⟩
      · simp only [hf.release, Prod.map]
      · simp only [hf.log]

theorem switch (c : Controller) (r : Role) (on : Bool) (s : σ) :
    c.switch r on (f s) = (c.switch r on s).map id (Prod.map id f) := by
  unfold Controller.switch
  cases (c.slot r).output with
  | none => rfl
  | some o => simp only [hf.switchOutput, Prod.map, id]

theorem unbind (c : Controller) (r : Role) (s : σ) :
    c.unbind r (f s) = (c.unbind r s).map id f := by
  unfold Controller.unbind
  cases (c.slot r).output with
  | none => rfl
  | some o =>
    simp only [hf.switchOutput, Prod.map, id, hf.release]
    rcases Board.release (o.switch false s).2 [(c.slot r).offset] with ⟨_ | _, s'⟩
    · simp only [hf.report]
    · rfl

theorem unbindAll (roles : List Role) :
    ∀ (c : Controller) (s : σ), c.unbindAll roles (f s) = (c.unbindAll roles s).map id f := by
  induction roles with
  | nil => exact fun _ _ => rfl
  | cons r rest ih =>
    intro c s
    simp only [Controller.unbindAll, hf.unbind, Prod.map, id, ih]

theorem acquire (pin : Role → Pin) (roles : List Role) :
    ∀ s : σ, Controller.acquire pin roles (f s) =
      (Controller.acquire pin roles s).map id (Prod.map id f) := by
  induction roles with
  | nil => exact fun _ => rfl
  | cons r rest ih =>
    intro s
    simp only [Controller.acquire, hf.requestPin]
    rcases Controller.requestPin (pin r) s with ⟨_ | o, s'⟩
    · rfl
    · simp only [Prod.map, id, ih]

theorem settle (target : Role → Offset) (acquired : List (Role × Output)) :
    ∀ (c : Controller) (s : σ),
      c.settle acquired target (f s) = (c.settle acquired target s).map id f := by
  induction acquired with
  | nil => exact fun _ _ => rfl
  | cons a rest ih =>
    intro c s
    simp only [Controller.settle, hf.log, ih]

theorem handBack (target : Role → Offset) (acquired : List (Role × Output)) :
    ∀ s : σ, Controller.handBack acquired target (f s) =
      f (Controller.handBack acquired target s) := by
  induction acquired with
  | nil => exact fun _ => rfl
  | cons a rest ih =>
    intro s
    simp only [Controller.handBack, hf.release, Prod.map, ih]

theorem restore (roles : List Role) :
    ∀ (c : Controller) (s : σ), c.restore roles (f s) = (c.restore roles s).map id f := by
  induction roles with
  | nil => exact fun _ _ => rfl
  | cons r rest ih =>
    intro c s
    simp only [Controller.restore, hf.requestPin]
    rcases Controller.requestPin ⟨(c.slot r).offset, (c.slot r).polarity⟩ s with ⟨_ | o, s'⟩
    · simp only [Prod.map, id, hf.report, ih]
    · simp only [Prod.map, id, hf.log, ih]

theorem rebind (c : Controller) (wanted : Each (Option Offset)) (s : σ) :
    c.rebind wanted (f s) = (c.rebind wanted s).map id (Prod.map id f) := by
  unfold Controller.rebind
  simp only
  split
  · rfl
  · split
    · simp only [hf.log, Prod.map, id]
    · simp only [hf.unbindAll, Prod.map, id]
      generalize c.unbindAll _ s = unbound
      simp only [hf.acquire, Prod.map, id]
      generalize Controller.acquire _ _ unbound.2 = result
      rcases result with ⟨acquired, _ | ⟨r, e⟩, s'⟩
      · simp only [hf.settle, Prod.map, id]
      · simp only [hf.log, hf.handBack, hf.restore, Prod.map, id]

end Carries

end Irrigation
