import Irrigation.Proofs.World.Switching

/-!
# What an iteration reads

An iteration reads the activation once, the deactivation once if the job goes on after the
activation wait, and the separation once if the deactivation switches off both devices
(`Iteration.readings`). How many of them it has read is known from its point and from what it has
shown of its switching (`Point.haveRead`); `Iteration.At.reads_on` says that a step reads on.
-/

namespace Irrigation

/-- The duration that a mark shows to be read. -/
def Mark.reading? : Mark → Option Interval
  | .reads i _ => some i
  | _ => none

/-- The durations that are read, in order. -/
def readings (marks : List Mark) : List Interval := marks.filterMap Mark.reading?

theorem readings_append (marks new : List Mark) :
    readings (marks ++ new) = readings marks ++ readings new :=
  List.filterMap_append

/-- Whether a mark shows the end of a deactivation wait. -/
def Mark.endsRest : Mark → Bool
  | .waited .deactivation .. => true
  | _ => false

namespace Point

/-- Whether the activation has been read. -/
def hasActivation : Point → Bool
  | .takingHardware => false
  | .takingTiming => false
  | .readingValve => false
  | .readingPump _ => false
  | .readingActivation _ => false
  | _ => true

/-- Whether the deactivation has been read. At the end of an iteration the point alone does not
say so, but the marks do. -/
def hasDeactivation (part : List Mark) : Point → Bool
  | .closingValve _ rest => rest.isSome
  | .choosingGap _ rest => rest.isSome
  | .readingSeparation rest => rest.isSome
  | .openingGap _ rest => rest.isSome
  | .sleepingGap _ rest => rest.isSome
  | .waitingGap _ rest => rest.isSome
  | .stoppingPump _ rest => rest.isSome
  | .resting _ => true
  | .counting => true
  | .lettingGo _ => part.any Mark.endsRest
  | .lettingGoPump _ => part.any Mark.endsRest
  | _ => false

/-- What an iteration has read that is at a point and has shown this of its switching. -/
def haveRead (p : Point) (part : List Mark) : List Interval :=
  (if p.hasActivation then [.activation] else []) ++
    (if p.hasDeactivation part then [.deactivation] else []) ++ readings part

end Point

namespace Iteration

variable {i : Iteration} {p : Point} {part : List Mark}

/-- **What an iteration reads**, in order. -/
def readings (i : Iteration) : List Interval :=
  [.activation] ++ (if i.goesOn then [.deactivation] else []) ++
    if i.left.all then [.separation] else []

theorem readings_attempt (r : Role) (on takesPart : Bool) :
    Irrigation.readings (attempt r on takesPart) = [] := by
  cases takesPart <;> rfl

theorem endsRest_attempt (r : Role) (on takesPart : Bool) :
    (attempt r on takesPart).any Mark.endsRest = false := by
  cases takesPart <;> rfl

/-! ## What the parts of a word read -/

theorem readings_opened (i : Iteration) : Irrigation.readings i.opened = [] := by
  rw [opened, readings_append]
  exact readings_attempt ..

theorem readings_started (i : Iteration) : Irrigation.readings i.started = [] := by
  rw [started, readings_append, readings_opened, readings_attempt]
  rfl

theorem readings_ran (i : Iteration) : Irrigation.readings i.ran = [] := by
  rw [ran, readings_append, readings_started]
  rfl

theorem readings_reread (i : Iteration) : Irrigation.readings i.reread = [] := by
  rw [reread, readings_append, readings_ran]
  rfl

theorem readings_relieved (i : Iteration) : Irrigation.readings i.relieved = [] := by
  rw [relieved, readings_append, readings_reread, readings_attempt]
  rfl

theorem readings_dropped (i : Iteration) : Irrigation.readings i.dropped = [] := by
  rw [dropped, readings_append, readings_relieved, readings_attempt]
  rfl

theorem readings_before (i : Iteration) : Irrigation.readings i.before = [] := by
  rw [before]
  split
  · exact readings_ran i
  · exact readings_dropped i

theorem readings_closed (i : Iteration) : Irrigation.readings i.closed = [] := by
  rw [closed, readings_append, readings_before, readings_attempt]
  rfl

theorem readings_gapped (i : Iteration) :
    Irrigation.readings i.gapped = if i.left.all then [.separation] else [] := by
  rw [gapped, readings_append, readings_closed]
  cases i.left.all <;> rfl

theorem readings_deactivated (i : Iteration) :
    Irrigation.readings i.deactivated = if i.left.all then [.separation] else [] := by
  rw [deactivated, readings_append, readings_gapped, readings_attempt, List.append_nil]

/-- Nothing is left to be switched off if the job ends because nothing is enabled any more. -/
theorem left_all_eq_false (hgoes : i.goesOn = false) (hstopped : i.stopped = false) :
    i.left.all = false := by
  rw [goesOn, hstopped, Bool.not_false, Bool.true_and] at hgoes
  rw [left, hstopped, if_neg Bool.false_ne_true]
  simp only [Each.any, Bool.or_eq_false_iff] at hgoes
  simp [Each.all, Each.meet, hgoes]

theorem readings_switched (i : Iteration) :
    Irrigation.readings i.switched = if i.left.all then [.separation] else [] := by
  rw [switched]
  split
  · rw [readings_append, readings_deactivated]
    cases i.cut <;> exact List.append_nil _
  · next hgoes =>
    split
    · exact readings_deactivated i
    · next hstopped =>
      rw [readings_dropped, left_all_eq_false (Bool.eq_false_iff.mpr hgoes)
        (Bool.eq_false_iff.mpr hstopped)]
      rfl

theorem endsRest_ran (i : Iteration) : i.ran.any Mark.endsRest = false := by
  simp [ran, started, opened, head, endsRest_attempt, Mark.endsRest]

theorem endsRest_dropped (i : Iteration) : i.dropped.any Mark.endsRest = false := by
  simp only [dropped, relieved, reread, List.any_append, endsRest_ran, endsRest_attempt]
  rfl

theorem endsRest_gapped (i : Iteration) : i.gapped.any Mark.endsRest = false := by
  have hbefore : i.before.any Mark.endsRest = false := by
    rw [before]
    split
    · exact endsRest_ran i
    · exact endsRest_dropped i
  simp only [gapped, closed, List.any_append, hbefore, endsRest_attempt]
  cases i.left.all <;> rfl

theorem endsRest_deactivated (i : Iteration) : i.deactivated.any Mark.endsRest = false := by
  rw [deactivated, List.any_append, endsRest_gapped, endsRest_attempt]
  rfl

/-- The marks say whether there was a deactivation wait. -/
theorem endsRest_switched (i : Iteration) : i.switched.any Mark.endsRest = i.goesOn := by
  rw [switched]
  split
  · next hgoes => simp [Mark.endsRest, hgoes]
  · next hgoes =>
    rw [Bool.eq_false_iff.mpr hgoes]
    split
    · exact endsRest_deactivated i
    · exact endsRest_dropped i

/-! ## A step reads on -/

/-- Marks that read nothing show no reading of the separation. -/
theorem readings_shape {marks : List Mark} (h : Irrigation.readings marks = []) :
    Irrigation.readings (shape marks) = [] := by
  rw [Irrigation.readings, List.filterMap_eq_nil_iff] at h
  rw [Irrigation.readings, shape, List.filterMap_filterMap, List.filterMap_eq_nil_iff]
  intro m hm
  have hnone := h m hm
  cases m with
  | reads i ms => cases hnone
  | told e => cases e <;> rfl
  | _ => rfl

/-- Most steps read nothing. -/
theorem reads_nothing {s : Watering} (hreads : Irrigation.readings (s.marksAt p) = [])
    (hactivation : (s.nextPoint p).hasActivation = p.hasActivation)
    (hdeactivation : (s.nextPoint p).hasDeactivation (part ++ shape (s.marksAt p)) =
      p.hasDeactivation part) :
    (s.nextPoint p).haveRead (part ++ shape (s.marksAt p)) =
      p.haveRead part ++ Irrigation.readings (s.marksAt p) := by
  rw [Point.haveRead, Point.haveRead, hactivation, hdeactivation, readings_append,
    readings_shape hreads, hreads, List.append_nil, List.append_nil]

theorem readings_entering (s : Watering) (next : CycleState) :
    Irrigation.readings (s.entering next) = [] := by
  unfold Watering.entering
  split <;> rfl

theorem readings_call (r : Role) (on takesPart : Bool) (line : Option Offset) :
    Irrigation.readings (if takesPart then [.call r on line] else []) = [] := by
  cases takesPart <;> rfl

theorem endsRest_call (r : Role) (on takesPart : Bool) (line : Option Offset) :
    (shape (if takesPart then [.call r on line] else [])).any Mark.endsRest = false := by
  cases takesPart <;> rfl

/-- **A step reads on.** -/
theorem At.reads_on (h : i.At p part) {s : Watering} (hon : (s.nextPoint p).inIteration = true) :
    (s.nextPoint p).haveRead (part ++ shape (s.marksAt p)) =
      p.haveRead part ++ Irrigation.readings (s.marksAt p) := by
  cases h with
  | takingHardware => exact reads_nothing rfl rfl rfl
  | takingTiming => exact reads_nothing rfl rfl rfl
  | readingValve => exact reads_nothing rfl rfl rfl
  | readingPump => exact reads_nothing rfl rfl rfl
  | readingActivation => rfl
  | enteringIrrigation ms => exact reads_nothing (readings_entering ..) rfl rfl
  | openingValve ms => exact reads_nothing (readings_call ..) rfl rfl
  | startingPump ms => exact reads_nothing (readings_call ..) rfl rfl
  | irrigating ms => exact reads_nothing rfl rfl rfl
  | enteringIdle =>
    refine reads_nothing (readings_entering ..) ?_ ?_ <;> rw [Watering.nextPoint] <;>
      cases i.stopped <;> rfl
  | recheckingValve h => exact reads_nothing rfl rfl rfl
  | recheckingPump h => exact reads_nothing rfl rfl rfl
  | switchingValve h =>
    refine reads_nothing (readings_call ..) ?_ ?_ <;> rw [Watering.nextPoint] <;> split <;> rfl
  | reportingValve h => exact reads_nothing rfl rfl rfl
  | switchingPump h =>
    refine reads_nothing (readings_call ..) ?_ ?_ <;> rw [Watering.nextPoint] <;> split <;> rfl
  | reportingPump h => exact reads_nothing rfl rfl rfl
  | deciding h =>
    refine reads_nothing rfl ?_ ?_ <;> rw [Watering.nextPoint] <;> split
    · rfl
    · rfl
    · rfl
    · exact (congrArg (List.any · Mark.endsRest) (List.append_nil _)).trans (endsRest_dropped i)
  | readingDeactivation h =>
    have hreads := readings_dropped i
    change [_, _] ++ Irrigation.readings (i.dropped ++ []) =
      [_] ++ Irrigation.readings i.dropped ++ [_]
    rw [List.append_nil, hreads]
    rfl
  | closingValve h => exact reads_nothing (readings_call ..) rfl rfl
  | choosingGap h =>
    refine reads_nothing rfl ?_ ?_ <;> rw [Watering.nextPoint] <;> split <;> rfl
  | readingSeparation h hall =>
    rw [Point.haveRead, Point.haveRead, readings_append, ← List.append_assoc]
    rfl
  | openingGap h hall =>
    refine reads_nothing rfl ?_ ?_ <;> rw [Watering.nextPoint] <;> split <;> rfl
  | sleepingGap h hall hp => exact reads_nothing rfl rfl rfl
  | waitingGap h hall hp => exact reads_nothing rfl rfl rfl
  | @stoppingPump rest h =>
    cases rest with
    | some ms => exact reads_nothing (readings_call ..) rfl rfl
    | none =>
      refine reads_nothing (readings_call ..) rfl ?_
      change (i.gapped ++ shape _).any _ = _
      rw [List.any_append, endsRest_gapped]
      exact endsRest_call ..
  | resting ms h =>
    refine reads_nothing rfl ?_ ?_ <;> rw [Watering.nextPoint] <;> split
    · rfl
    · rfl
    · exact (List.any_append ..).trans (Bool.or_true _)
    · rfl
  | counting h =>
    refine reads_nothing rfl rfl ?_
    change ((i.deactivated ++ [_]) ++ [_]).any _ = _
    rw [List.any_append, List.any_append]
    exact (congrArg (· || _) (Bool.or_true _)).trans (Bool.true_or _)
  | lettingGo =>
    have hsome : s.replaced.isSome = true := by
      rw [Watering.nextPoint] at hon
      split at hon
      · assumption
      · rw [World.not_inIteration_afterIteration] at hon
        cases hon
    have hnext : s.nextPoint (.lettingGo i.elapsed) = .lettingGoPump i.elapsed := if_pos hsome
    have hmarks : s.marksAt (.lettingGo i.elapsed) = [.gaveUp .valve (s.line? .valve)] :=
      if_pos hsome
    refine reads_nothing (by rw [hmarks]; rfl) (by rw [hnext]; rfl) ?_
    rw [hnext, hmarks]
    exact (List.any_append ..).trans (Bool.or_false _)
  | lettingGoPump h =>
    rw [show s.nextPoint (.lettingGoPump i.elapsed) = Watering.afterIteration i.elapsed from rfl,
      World.not_inIteration_afterIteration] at hon
    cases hon

/-! ## What has been read -/

theorem readings_word (i : Iteration) :
    Irrigation.readings i.word = if i.left.all then [.separation] else [] := by
  rw [word, readings_append, readings_switched]
  cases i.replaced <;> exact List.append_nil _

theorem endsRest_word (i : Iteration) : i.word.any Mark.endsRest = i.goesOn := by
  rw [word, List.any_append, endsRest_switched]
  cases i.replaced <;> exact Bool.or_false _

/-- **What an iteration has read when it is over.** -/
theorem At.reads_all (h : i.At p part) {s : Watering}
    (hoff : (s.nextPoint p).inIteration = false) {whole : Iteration}
    (hword : part ++ shape (s.marksAt p) = whole.word) :
    p.haveRead part ++ Irrigation.readings (s.marksAt p) = whole.readings := by
  -- The last step gives up lines at most, so the word is read off what was written before it.
  have hlast : Irrigation.readings (s.marksAt p) = [] ∧
      (shape (s.marksAt p)).any Mark.endsRest = false ∧ p.hasActivation = true ∧
      p.hasDeactivation part = part.any Mark.endsRest := by
    obtain ⟨again, rfl⟩ | ⟨again, rfl⟩ := letsGo_of_end h.inIteration hoff
    · rw [Watering.marksAt]
      split <;> exact ⟨rfl, rfl, rfl, rfl⟩
    · exact ⟨rfl, rfl, rfl, rfl⟩
  obtain ⟨hreads, hrest, hactivation, hdeactivation⟩ := hlast
  have hgoes : part.any Mark.endsRest = whole.goesOn := by
    rw [← endsRest_word, ← hword, List.any_append, hrest, Bool.or_false]
  have hgap : Irrigation.readings part = if whole.left.all then [.separation] else [] := by
    rw [← readings_word, ← hword, readings_append, readings_shape hreads, List.append_nil]
  rw [Point.haveRead, hreads, List.append_nil, hactivation, hdeactivation, hgoes, hgap]
  rfl

/-- Before the deactivation is read the gap is not, and afterwards the point says so. -/
theorem At.haveRead_cases (h : i.At p part) :
    (p.hasDeactivation part = false ∧ Irrigation.readings part = []) ∨
      (p.hasActivation = true ∧ p.hasDeactivation part = i.goesOn) := by
  cases h with
  | takingHardware => exact .inl ⟨rfl, rfl⟩
  | takingTiming => exact .inl ⟨rfl, rfl⟩
  | readingValve => exact .inl ⟨rfl, rfl⟩
  | readingPump => exact .inl ⟨rfl, rfl⟩
  | readingActivation => exact .inl ⟨rfl, rfl⟩
  | enteringIrrigation ms => exact .inl ⟨rfl, rfl⟩
  | openingValve ms => exact .inl ⟨rfl, rfl⟩
  | startingPump ms => exact .inl ⟨rfl, readings_opened i⟩
  | irrigating ms => exact .inl ⟨rfl, readings_started i⟩
  | enteringIdle => exact .inl ⟨rfl, readings_ran i⟩
  | recheckingValve h => exact .inl ⟨rfl, readings_ran i⟩
  | recheckingPump h =>
    refine .inl ⟨rfl, ?_⟩
    rw [readings_append, readings_ran]
    rfl
  | switchingValve h => exact .inl ⟨rfl, readings_reread i⟩
  | reportingValve h => exact .inl ⟨rfl, readings_relieved i⟩
  | switchingPump h => exact .inl ⟨rfl, readings_relieved i⟩
  | reportingPump h => exact .inl ⟨rfl, readings_dropped i⟩
  | deciding h => exact .inl ⟨rfl, readings_dropped i⟩
  | readingDeactivation h => exact .inl ⟨rfl, readings_dropped i⟩
  | closingValve h => exact .inr ⟨rfl, h.goesOn.symm⟩
  | choosingGap h => exact .inr ⟨rfl, h.goesOn.symm⟩
  | readingSeparation h hall => exact .inr ⟨rfl, h.goesOn.symm⟩
  | openingGap h hall => exact .inr ⟨rfl, h.goesOn.symm⟩
  | sleepingGap h hall hp => exact .inr ⟨rfl, h.goesOn.symm⟩
  | waitingGap h hall hp => exact .inr ⟨rfl, h.goesOn.symm⟩
  | stoppingPump h => exact .inr ⟨rfl, h.goesOn.symm⟩
  | resting ms h => exact .inr ⟨rfl, h.symm⟩
  | counting h => exact .inr ⟨rfl, (Bool.and_eq_true_iff.mp h).1.symm⟩
  | lettingGo => exact .inr ⟨rfl, endsRest_switched i⟩
  | lettingGoPump h =>
    exact .inr ⟨rfl, (List.any_append ..).trans ((Bool.or_false _).trans (endsRest_switched i))⟩

/-- **What an iteration has read is the beginning of what it reads.** -/
theorem At.haveRead_prefix (h : i.At p part) : p.haveRead part <+: i.readings := by
  rw [Point.haveRead, readings, List.append_assoc, List.append_assoc]
  rcases h.haveRead_cases with ⟨hnone, hgap⟩ | ⟨hactivation, hdeactivation⟩
  · rw [hnone, hgap]
    cases p.hasActivation
    · exact List.nil_prefix
    · exact List.prefix_append ..
  · have hgap : Irrigation.readings part <+: if i.left.all then [.separation] else [] :=
      readings_word i ▸ h.prefix_word.filterMap Mark.reading?
    rw [hactivation, hdeactivation]
    exact (List.prefix_append_right_inj _).mpr ((List.prefix_append_right_inj _).mpr hgap)

end Iteration

end Irrigation
