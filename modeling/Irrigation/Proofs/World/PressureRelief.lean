import Irrigation.Proofs.World.Laps

/-!
# Pressure relief

The pump stays on for the separation after the valve was switched off, so that the pressure can go
down (`Relieved`). The deactivation at the end of an iteration sees to it. A device that was
disabled while irrigating is switched off beforehand, as soon as the flags are read again, and
nothing sees to it there: the pump goes off at once, and before the valve if only the pump was
disabled (`Iteration.Hasty`). So an iteration that has both devices on relieves the pressure
exactly if it finds both enabled again, or a stop keeps it from looking
(`Iteration.relieved_word_iff`).
-/

namespace Irrigation

/-- An attempt to switch a device off. -/
abbrev Mark.off (r : Role) : Mark := .call r false none

/-- Where the pump is switched off, the valve was switched off before, and between the two was a
gap of the separation read for it, which lasted its length unless a stop was raised in it. -/
def Relieved (marks : List Mark) : Prop :=
  ∀ before after, marks = before ++ .off .pump :: after →
    ∃ (early : List Mark) (gap : Gap), before = early ++ .off .valve :: gap.word

theorem Relieved.mono {part marks : List Mark} (h : Relieved marks) (hpart : part <+: marks) :
    Relieved part := by
  obtain ⟨rest, rfl⟩ := hpart
  intro before after hsplit
  exact h before (after ++ rest) (by rw [hsplit, List.append_assoc, List.cons_append])

namespace Iteration

variable {i : Iteration} {part marks : List Mark}

/-! ## The two courses of an iteration -/

/-- The worker finds both devices enabled again, or does not look because a stop ended the
activation wait. -/
def Undisturbed (i : Iteration) : Prop := i.stopped = true ∨ i.now.all = true

instance (i : Iteration) : Decidable i.Undisturbed := inferInstanceAs (Decidable (_ ∨ _))

/-- The pump is switched off as soon as the flags are read again, after the valve if the valve is
disabled and before it else. -/
def Hasty (i : Iteration) (marks : List Mark) : Prop :=
  ∀ before after, marks = before ++ .off .pump :: after →
    before = i.reread ++ attempt .valve false (!i.now.valve)

theorem Hasty.mono (h : i.Hasty marks) (hpart : part <+: marks) : i.Hasty part := by
  obtain ⟨rest, rfl⟩ := hpart
  intro before after hsplit
  exact h before (after ++ rest) (by rw [hsplit, List.append_assoc, List.cons_append])

/-- A wait is the last thing before the pump goes off in the one course, and never in the other. -/
theorem Hasty.not_relieved (h : i.Hasty marks) (hoff : .off .pump ∈ marks) :
    ¬ Relieved marks := by
  intro hrelieved
  obtain ⟨before, after, hsplit⟩ := List.append_of_mem hoff
  obtain ⟨early, gap, hgap⟩ := hrelieved before after hsplit
  have hwaited : before.getLast? =
      some (.waited .separation gap.ms gap.raised (gap.pending || !gap.raised)) := by
    rw [hgap, Gap.word]
    simp
  have hcall : before.getLast? = some (.off .valve) ∨
      before.getLast? = some (.sees .pump i.now.pump) := by
    rw [h before after hsplit, reread]
    cases i.now.valve with
    | false => exact .inl (by simp [attempt])
    | true => exact .inr (by simp [attempt])
  rw [hwaited] at hcall
  rcases hcall with hcall | hcall <;> cases hcall

/-! ## The place of the pump's call -/

/-- The pump is switched off once in a word, so there is one place for it. -/
theorem eq_of_off_pump {before after early late : List Mark}
    (hword : i.word = early ++ .off .pump :: late)
    (hsplit : i.word = before ++ .off .pump :: after) : before = early := by
  have honce : i.word.count (.off .pump) ≤ 1 := by
    rw [← tally, tally_word]
    split <;> omega
  rw [hword, List.count_append, List.count_cons_self] at honce
  have hearly : Mark.off .pump ∉ early := List.count_eq_zero.mp (by omega)
  have hlate : Mark.off .pump ∉ late := List.count_eq_zero.mp (by omega)
  have hsame := (List.append_cons_inj_of_notMem hearly hlate).mp (hword.symm.trans hsplit)
  exact hsame.1.symm

theorem deactivated_prefix_word {rest : Rest} (h : i.Rests rest) : i.deactivated <+: i.word :=
  (deactivated_prefix_switched h).trans (List.prefix_append ..)

theorem dropped_prefix_word (h : i.stopped = false) : i.dropped <+: i.word :=
  (dropped_prefix_switched h).trans (List.prefix_append ..)

/-- An iteration that goes on, or is stopped, ends with a deactivation. -/
theorem exists_rests_of_undisturbed (h : i.Undisturbed) : ∃ rest, i.Rests rest := by
  cases hstopped : i.stopped with
  | true => exact ⟨none, by rw [goesOn, hstopped]; rfl, hstopped⟩
  | false =>
    have hnow : i.now.all = true := by simpa [Undisturbed, hstopped] using h
    have hany : i.now.any = true := by
      rw [Each.all, Bool.and_eq_true] at hnow
      rw [Each.any, hnow.1, Bool.true_or]
    exact ⟨some i.rest, by rw [goesOn, hstopped, hany]; rfl, hstopped⟩

theorem left_all_of_undisturbed (hboth : i.on.all = true) (h : i.Undisturbed) :
    i.left.all = true := by
  rw [left]
  split
  · exact hboth
  · next hstopped =>
    have hnow : i.now.all = true := h.resolve_left hstopped
    rw [Each.all, Bool.and_eq_true] at hboth hnow ⊢
    exact ⟨by simp [Each.meet, hboth.1, hnow.1], by simp [Each.meet, hboth.2, hnow.2]⟩

/-- An undisturbed iteration switches both devices off in its deactivation. -/
theorem word_of_undisturbed (hboth : i.on.all = true) (h : i.Undisturbed) :
    ∃ late, i.word = (i.before ++ .off .valve :: i.gap.word) ++ .off .pump :: late := by
  have hleft := left_all_of_undisturbed hboth h
  obtain ⟨hvalve, hpump⟩ := Bool.and_eq_true_iff.mp hleft
  have hdeactivated : i.deactivated =
      (i.before ++ .off .valve :: i.gap.word) ++ [.off .pump] := by
    rw [deactivated, gapped, closed, hleft, hvalve, hpump]
    simp [attempt]
  obtain ⟨rest, hrests⟩ := exists_rests_of_undisturbed h
  obtain ⟨late, hlate⟩ := deactivated_prefix_word hrests
  exact ⟨late, by rw [← hlate, hdeactivated, List.append_assoc _ [_]]; rfl⟩

/-- A disturbed iteration switches the pump off where the flags are read again: there and then if
the pump was disabled, and else in a deactivation in which the valve has no part any more. -/
theorem word_of_disturbed (hboth : i.on.all = true) (h : ¬ i.Undisturbed) :
    ∃ late, i.word =
      (i.reread ++ attempt .valve false (!i.now.valve)) ++ .off .pump :: late := by
  obtain ⟨hvalve, hpump⟩ := Bool.and_eq_true_iff.mp hboth
  rw [Undisturbed, not_or, Bool.not_eq_true, Bool.not_eq_true] at h
  obtain ⟨hstopped, hnow⟩ := h
  have hrelieved : i.relieved = i.reread ++ attempt .valve false (!i.now.valve) := by
    rw [relieved, hvalve, Bool.true_and]
  cases hpumpNow : i.now.pump with
  | false =>
    have hdropped : i.dropped = i.relieved ++ [.off .pump] := by
      rw [dropped, hpump, hpumpNow]
      rfl
    obtain ⟨late, hlate⟩ := dropped_prefix_word hstopped
    exact ⟨late, by rw [← hlate, hdropped, hrelieved, List.append_assoc _ [_]]; rfl⟩
  | true =>
    have hvalveNow : i.now.valve = false := by simpa [Each.all, hpumpNow] using hnow
    have hgoes : i.goesOn = true := by rw [goesOn, hstopped, Each.any, hpumpNow, Bool.or_true]; rfl
    obtain ⟨-, hleft, hbefore⟩ := left_of_goesOn hgoes
    have hdeactivated : i.deactivated = i.relieved ++ [.off .pump] := by
      rw [deactivated, gapped, closed, hleft, hbefore, dropped, hpump, hpumpNow]
      simp [attempt, Each.meet, Each.all, hpump, hpumpNow, hvalveNow]
    have hrests : i.Rests (some i.rest) := ⟨hgoes, hstopped⟩
    obtain ⟨late, hlate⟩ := deactivated_prefix_word hrests
    exact ⟨late, by rw [← hlate, hdeactivated, hrelieved, List.append_assoc _ [_]]; rfl⟩

/-! ## When pressure is relieved -/

theorem relieved_of_undisturbed (hboth : i.on.all = true) (h : i.Undisturbed) :
    Relieved i.word := by
  obtain ⟨late, hword⟩ := word_of_undisturbed hboth h
  intro before after hsplit
  exact ⟨i.before, i.gap, eq_of_off_pump hword hsplit⟩

theorem hasty_of_disturbed (hboth : i.on.all = true) (h : ¬ i.Undisturbed) : i.Hasty i.word := by
  obtain ⟨late, hword⟩ := word_of_disturbed hboth h
  exact fun before after hsplit => eq_of_off_pump hword hsplit

theorem off_pump_mem_word (hboth : i.on.all = true) : .off .pump ∈ i.word := by
  have hpump : i.on.get .pump = true := (Bool.and_eq_true_iff.mp hboth).2
  have honce : i.word.count (.off .pump) = 1 := by
    rw [← tally, tally_word, hpump, if_pos rfl]
  exact List.count_pos_iff.mp (by omega)

/-- **An iteration with both devices on relieves the pressure exactly if it is undisturbed.** -/
theorem relieved_word_iff (hboth : i.on.all = true) : Relieved i.word ↔ i.Undisturbed := by
  refine ⟨fun hrelieved => ?_, relieved_of_undisturbed hboth⟩
  by_contra h
  exact (hasty_of_disturbed hboth h).not_relieved (off_pump_mem_word hboth) hrelieved

/-- What is written of an iteration keeps to one of the two courses. -/
structure Course (i : Iteration) (part : List Mark) : Prop where
  relieved : i.Undisturbed → Relieved part
  hasty : ¬ i.Undisturbed → i.Hasty part

theorem course_of_part (hboth : i.on.all = true) (hpart : part <+: i.word) :
    i.Course part where
  relieved h := (relieved_of_undisturbed hboth h).mono hpart
  hasty h := (hasty_of_disturbed hboth h).mono hpart

end Iteration

/-! ## Worlds -/

namespace World

variable {w : World}

/-- What it means that the worker of a world relieves the pressure unless a device is disabled
while irrigating. -/
structure RelievesUnlessDisabled (w : World) : Prop where
  /-- The switching shown so far is a row of words of iterations, the last of which may not be
  complete. An iteration that has both devices on relieves the pressure exactly if it is
  undisturbed; else it switches the pump off as soon as the flags are read again. Of the iteration
  under way, what is written so far keeps to the same course. -/
  words : ∃ (done : List Iteration) (current : Iteration) (part : List Mark),
    shape w.trace = done.flatMap Iteration.word ++ part ∧ part <+: current.word ∧
      ((∀ p, w.system.point? = some p → p.inIteration = false) → part = []) ∧
      (∀ i ∈ done, i.on.all = true →
        .off .pump ∈ i.word ∧ (Relieved i.word ↔ i.Undisturbed) ∧ i.Course i.word) ∧
      (current.on.all = true → current.Course part)
  /-- Flags, durations and the stop signal are what the marks say when they are shown. -/
  faithful : ∀ m ∈ w.system.marks, m.Faithful w.system
  /-- What the worker has done, by the journal, is what the marks say: the calls of bound roles,
  the waits and the reads. -/
  deeds : w.system.rig.workerDeeds = w.trace.filterMap Mark.workerDeed?

/-- **The pressure is relieved unless a device is disabled while irrigating**, whatever else the
caller does meanwhile. -/
theorem relieves_unless_disabled (h : w.Reachable) : w.RelievesUnlessDisabled where
  words := by
    obtain ⟨done, part, hshape, ⟨current, hpart⟩, hout⟩ := h.words
    refine ⟨done, current, part, hshape, hpart, hout, fun i _ hboth => ?_, fun hboth => ?_⟩
    · exact ⟨Iteration.off_pump_mem_word hboth, Iteration.relieved_word_iff hboth,
        Iteration.course_of_part hboth (List.prefix_refl _)⟩
    · exact Iteration.course_of_part hboth hpart
  faithful := fun _ => faithful_of_mem_marks
  deeds := h.recorded.worker

/-- Both devices are disabled while irrigating, and the pump goes off right after the valve. -/
theorem unrelieved_when_both_disabled : ∃ w : World,
    after ⟨⟨17, .activeLow⟩, ⟨27, .activeLow⟩⟩
      (.call (.start none) :: List.replicate 10 .work ++
        [.call (.enable .valve false), .call (.enable .pump false)] ++
        List.replicate 9 .work) = some w ∧
    w.trace.drop (w.trace.length - 4) =
      [.sees .valve false, .sees .pump false, .call .valve false (some 17),
        .call .pump false (some 27)] ∧
    w.RelievesUnlessDisabled := by
  obtain ⟨w, hw, hfacts⟩ := (Option.any_eq_true
    (fun w : World => w.trace.drop (w.trace.length - 4) ==
      [.sees .valve false, .sees .pump false, .call .valve false (some 17),
        .call .pump false (some 27)]) _).mp
    (show Option.any _ (after ⟨⟨17, .activeLow⟩, ⟨27, .activeLow⟩⟩
      (.call (.start none) :: List.replicate 10 .work ++
        [.call (.enable .valve false), .call (.enable .pump false)] ++
        List.replicate 9 .work)) = true by rfl)
  exact ⟨w, hw, by simpa using hfacts, relieves_unless_disabled (reachable_of_after hw)⟩

end World

end Irrigation
