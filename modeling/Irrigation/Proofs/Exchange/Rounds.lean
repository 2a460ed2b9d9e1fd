import Irrigation.Proofs.Exchange.Seating

/-!
# Rounds

A `Round` is what an iteration leaves in the log: it takes a controller and durations, and whatever
it shows from then on it shows while it has these. In every reachable exchange the log is a row of
rounds, of which the last may be under way (`Exchange.Remembered`), what is taken is what was put in
force last, and each duration that is read has the value that it was given last.
-/

namespace Irrigation

/-! ## The last word on a thing -/

theorem lastOf_concat {α : Type} (about? : Entry → Option α) (log : List Entry) (e : Entry) :
    lastOf about? (log ++ [e]) = (about? e).or (lastOf about? log) := by
  rw [lastOf, List.filterMap_append, lastOf]
  cases h : about? e with
  | none => simp [h]
  | some a => simp [h]

/-- Entries that are silent on a thing do not change it. -/
theorem lastOf_append {α : Type} {about? : Entry → Option α} (log : List Entry) {new : List Entry}
    (h : ∀ e ∈ new, about? e = none) : lastOf about? (log ++ new) = lastOf about? log := by
  rw [lastOf, List.filterMap_append, List.filterMap_eq_nil_iff.mpr h, List.append_nil, lastOf]

/-- What an entry reports is so after the entries before it: what is taken was put in force last,
and what is read was set last. -/
def Entry.Fits (before : List Entry) : Entry → Prop
  | .tookHardware k => lastOf Entry.installed? before = some k
  | .tookTiming n => lastOf Entry.chosen? before = some n
  | .did _ timing (.reads i ms) =>
    ∃ n, timing = some n ∧ lastOf (Entry.sets? n i) before = some ms
  | _ => True

/-- Every entry of a log fits. -/
def AllFit (log : List Entry) : Prop :=
  ∀ before e after, log = before ++ e :: after → e.Fits before

theorem AllFit.append {log new : List Entry} (h : AllFit log)
    (hnew : ∀ before e after, new = before ++ e :: after → e.Fits (log ++ before)) :
    AllFit (log ++ new) := by
  intro before e after hsplit
  rcases List.append_eq_append_iff.mp hsplit with ⟨more, hbefore, hrest⟩ | ⟨more, hlog, hrest⟩
  · rw [hbefore]
    exact hnew more e after hrest
  · cases more with
    | nil =>
      rw [List.append_nil] at hlog
      rw [← hlog, ← List.append_nil log]
      exact hnew [] e after hrest.symm
    | cons e' more =>
      obtain ⟨rfl, hafter⟩ := List.cons.inj hrest
      exact h before e more hlog

theorem AllFit.concat {log : List Entry} (h : AllFit log) {e : Entry} (he : e.Fits log) :
    AllFit (log ++ [e]) := by
  refine h.append fun before e' after hsplit => ?_
  obtain ⟨rfl, hlast⟩ | ⟨-, hnone⟩ := List.singleton_eq_append_iff.mp hsplit
  · obtain rfl := (List.cons.inj hlast).1
    rwa [List.append_nil]
  · cases hnone

/-! ## What an iteration leaves -/

/-- An iteration with what it took, and the marks that it showed from then on. -/
structure Round where
  iteration : Iteration
  hardware : Nat
  timing : Nat
  marks : List Mark

namespace Round

variable (r : Round)

/-- What it leaves in the log. -/
def entries : List Entry :=
  [.did none none .began, .tookHardware r.hardware, .tookTiming r.timing] ++
    r.marks.map (.did (some r.hardware) (some r.timing))

/-- All that it shows of its switching. -/
def shown : List Mark := shape (.began :: r.marks)

/-- It has shown the whole word of the iteration, and has read what the iteration reads. -/
structure Complete : Prop where
  word : r.shown = r.iteration.word
  reads : readings r.marks = r.iteration.readings

/-- So far it has shown the beginning of the word, and has read the beginning of what the iteration
reads. -/
structure Begun : Prop where
  word : r.shown <+: r.iteration.word
  reads : readings r.marks <+: r.iteration.readings

end Round

/-- Whether an entry belongs to an iteration. -/
def Entry.belongs : Entry → Bool
  | .did _ _ .began => true
  | .did hardware _ _ => hardware.isSome
  | .tookHardware _ => true
  | .tookTiming _ => true
  | _ => false

/-- Whether an entry is about what the worker does. -/
def Entry.isWorkers : Entry → Bool
  | .tookHardware _ => true
  | .tookTiming _ => true
  | .did .. => true
  | _ => false

/-- What an entry says that the worker has done. -/
def Entry.deed? : Entry → Option Effect
  | .did _ _ m => m.workerDeed?
  | _ => none

namespace Exchange

/-- How far the iteration under way is, and what it has left in the log. -/
inductive Underway (x : Exchange) : List Entry → Prop
  | outside (h : ∀ p, x.world.system.point? = some p → p.inIteration = false) : Underway x []
  | takingHardware (h : x.world.system.point? = some .takingHardware) :
      Underway x [.did none none .began]
  | takingTiming {k : Nat} (h : x.world.system.point? = some .takingTiming)
      (hused : x.usedHardware = some k) :
      Underway x [.did none none .began, .tookHardware k]
  | round {p : Point} (r : Round) (h : x.world.system.point? = some p)
      (huses : p.usesTiming = true) (hhardware : x.usedHardware = some r.hardware)
      (htiming : x.usedTiming = some r.timing) (hat : r.iteration.At p r.shown)
      (hreads : readings r.marks = p.haveRead r.shown) : Underway x r.entries

/-- The log is a row of rounds, of which the last may be under way. -/
def Rounds (x : Exchange) : Prop :=
  ∃ (done : List Round) (part : List Entry),
    x.log.filter Entry.belongs = done.flatMap Round.entries ++ part ∧
      (∀ r ∈ done, r.Complete) ∧ x.Underway part

/-- Each duration has the value that it was given last. -/
def Valued (x : Exchange) : Prop :=
  ∀ n t, x.timings[n]? = some t → ∀ i, lastOf (Entry.sets? n i) x.log = some (t.get i)

/-- What is so of the log in every reachable exchange. -/
structure Remembered (x : Exchange) : Prop where
  installed : lastOf Entry.installed? x.log = some x.hardware
  chosen : lastOf Entry.chosen? x.log = some x.timing
  valued : x.Valued
  fits : AllFit x.log
  rounds : x.Rounds

variable {x y : Exchange}

/-! ## A step of the worker -/

section Worked

variable {p : Point} {w : World}

/-- What the worker shows puts nothing in force and sets no duration. -/
theorem silent_of_mem_shown {e : Entry} (he : e ∈ x.shown p) :
    e.installed? = none ∧ e.chosen? = none ∧ ∀ n i, e.sets? n i = none := by
  unfold shown at he
  split at he
  · obtain rfl := List.mem_singleton.mp he
    exact ⟨rfl, rfl, fun _ _ => rfl⟩
  · obtain rfl := List.mem_singleton.mp he
    exact ⟨rfl, rfl, fun _ _ => rfl⟩
  · obtain ⟨m, -, rfl⟩ := List.mem_map.mp he
    exact ⟨rfl, rfl, fun _ _ => rfl⟩

theorem shown_of_took {s : Exchange} (hhardware : p ≠ .takingHardware)
    (htiming : p ≠ .takingTiming) :
    s.shown p = (s.acting.marksAt p).map (.did s.usedHardware s.usedTiming) := by
  cases p with
  | takingHardware => exact absurd rfl hhardware
  | takingTiming => exact absurd rfl htiming
  | _ => rfl

/-- A duration that is read is one of the iteration's. -/
theorem reads_of_mem_marksAt {s : Watering} {i : Interval} {ms : UInt64}
    (h : .reads i ms ∈ s.marksAt p) : ms = s.iterationTiming.get i ∧ p.usesTiming = true := by
  revert h
  fun_cases Watering.marksAt s p <;> grind [Watering.entering, Point.usesTiming, Point.holdsTiming,
    Point.holdsHardware]

/-- The iteration's durations are those that it has taken. -/
theorem Sound.iterationTiming (h : x.Sound) (hp : x.world.system.point? = some p)
    (huses : p.usesTiming = true) :
    ∃ n, x.usedTiming = some n ∧ x.timings[n]? = some x.acting.iterationTiming := by
  obtain ⟨n, hn⟩ := Option.isSome_iff_exists.mp ((h.usesTiming_at hp).trans huses)
  have hiteration : x.acting.iterationTiming = x.ownTiming?.getD x.world.system.timing := by
    rw [← h.ownTiming, ← facing_ownTiming, ← (facing_frame x).2.1]
    rfl
  refine ⟨n, hn, ?_⟩
  rw [hiteration]
  by_cases hsame : n = x.timing
  · rw [ownTiming?, supplanted_of_not_used (.inr (hsame ▸ hn)), hsame]
    exact h.timing
  · rw [ownTiming?, supplanted_of_used hn hsame, List.getElem?_eq_getElem (h.madeTiming n hn)]
    rfl

/-- **What the worker shows fits.** -/
theorem Remembered.shown_fits (h : x.Remembered) (hsound : x.Sound)
    (hp : x.world.system.point? = some p) : AllFit (x.log ++ x.shown p) := by
  by_cases hhardware : p = .takingHardware
  · subst hhardware
    exact h.fits.concat h.installed
  by_cases htiming : p = .takingTiming
  · subst htiming
    exact h.fits.concat h.chosen
  refine h.fits.append fun before e after hsplit => ?_
  have hbefore : ∀ e' ∈ before, e' ∈ x.shown p := fun e' he' =>
    hsplit ▸ List.mem_append_left _ he'
  have he : e ∈ x.shown p := hsplit ▸ List.mem_append_right _ (.head _)
  rw [shown_of_took hhardware htiming] at he
  obtain ⟨m, hm, rfl⟩ := List.mem_map.mp he
  cases m with
  | reads i ms =>
    obtain ⟨rfl, huses⟩ := reads_of_mem_marksAt hm
    obtain ⟨n, hn, ht⟩ := hsound.iterationTiming hp huses
    refine ⟨n, hn, ?_⟩
    rw [lastOf_append _ fun e' he' => (silent_of_mem_shown (hbefore e' he')).2.2 n i]
    exact h.valued n _ ht i
  | _ => trivial

theorem Underway.stay {part : List Entry} (h : x.Underway part)
    (hpoint : y.world.system.point? = x.world.system.point?)
    (hhardware : y.usedHardware = x.usedHardware) (htiming : y.usedTiming = x.usedTiming) :
    y.Underway part := by
  cases h with
  | outside h => exact .outside fun p hp => h p (hpoint ▸ hp)
  | takingHardware h => exact .takingHardware (hpoint.trans h)
  | takingTiming h hused => exact .takingTiming (hpoint.trans h) (hhardware.trans hused)
  | round r h huses hused hused' hat hreads =>
    exact .round r (hpoint.trans h) huses (hhardware.trans hused) (htiming.trans hused') hat hreads

/-- Outside of iterations no round is under way. -/
theorem Underway.eq_nil {part : List Entry} (h : x.Underway part)
    (hout : ∀ p, x.world.system.point? = some p → p.inIteration = false) : part = [] := by
  cases h with
  | outside => rfl
  | takingHardware hp => cases hout _ hp
  | takingTiming hp => cases hout _ hp
  | round r hp _ _ _ hat => cases (hout _ hp).symm.trans hat.inIteration

/-- Outside of iterations nothing belongs to one, but for the beginning. -/
theorem belongs_outside {s : Watering} (hout : p.inIteration = false) (hover : p.isOver = false) :
    (((s.marksAt p).map (Entry.did none none)).filter Entry.belongs = [] ∧
        (s.nextPoint p).inIteration = false) ∨
      ((s.marksAt p).map (Entry.did none none) = [.did none none .began] ∧
        s.nextPoint p = .takingHardware) := by
  have hentering (next : CycleState) :
      ((s.entering next).map (Entry.did none none)).filter Entry.belongs = [] := by
    unfold Watering.entering
    split <;> rfl
  cases p with
  | starting => exact .inl ⟨rfl, rfl⟩
  | loopHead =>
    rw [Watering.marksAt, Watering.nextPoint]
    split
    · exact .inl ⟨rfl, rfl⟩
    · exact .inr ⟨rfl, rfl⟩
  | enteringTearDown => exact .inl ⟨hentering _, rfl⟩
  | enteringDisabled => exact .inl ⟨hentering _, rfl⟩
  | finishing => exact .inl ⟨rfl, rfl⟩
  | lowering => exact .inl ⟨rfl, rfl⟩
  | ended => cases hover
  | crashed => cases hover
  | _ => cases hout

/-- After a step the worker is at the next point. -/
theorem worked_point (hs : x.Steps p w) :
    (x.worked p w).world.system.point? = some (x.acting.nextPoint p) := hs.next

/-- A step in a round. -/
theorem Underway.worked_round {part : List Entry} (hs : x.Steps p w) (r : Round)
    (huses : p.usesTiming = true) (hhardware : x.usedHardware = some r.hardware)
    (htiming : x.usedTiming = some r.timing) (hat : r.iteration.At p r.shown)
    (hreads : readings r.marks = p.haveRead r.shown) (hpart : part = r.entries ++ x.shown p) :
    (x.worked p w).Underway part ∨
      (∃ r' : Round, r'.Complete ∧ part = r'.entries) ∧ (x.worked p w).Underway [] := by
  obtain ⟨hhead, hhead'⟩ := Point.ne_head_of_usesTiming huses
  have hmarks (i : Iteration) : part =
      (⟨i, r.hardware, r.timing, r.marks ++ x.acting.marksAt p⟩ : Round).entries := by
    rw [hpart, shown_of_took hhead hhead', hhardware, htiming, Round.entries, Round.entries,
      List.map_append, List.append_assoc]
  have hshown (i : Iteration) :
      (⟨i, r.hardware, r.timing, r.marks ++ x.acting.marksAt p⟩ : Round).shown =
        r.shown ++ shape (x.acting.marksAt p) :=
    shape_append (.began :: r.marks) _
  rcases hat.next x.acting with ⟨i, hat'⟩ | ⟨i, hnext, hword⟩
  · -- The iteration goes on, and the round is longer.
    have hon := hat'.inIteration
    refine .inl ?_
    rw [hmarks i]
    refine .round _ (worked_point hs) ?_ ?_ ?_ ?_ ?_
    · rw [Watering.usesTiming_nextPoint, hon, huses, Bool.or_true]
      rfl
    · rw [worked_usedHardware hs, hon, if_pos rfl, if_neg hhead, hhardware]
    · rw [worked_usedTiming hs, hon, if_pos rfl, if_neg hhead', htiming]
    · rw [hshown]
      exact hat'
    · rw [readings_append, hshown, hat.reads_on hon, hreads]
  · -- The iteration is over, and the round is complete.
    have hoff : (x.acting.nextPoint p).inIteration = false := by
      rw [hnext]
      exact World.not_inIteration_afterIteration _
    refine .inr ⟨⟨_, ⟨?_, ?_⟩, hmarks i⟩, .outside fun q hq => ?_⟩
    · rw [hshown]
      exact hword
    · rw [readings_append, hreads]
      exact hat.reads_all hoff hword
    · obtain rfl := Option.some.inj ((worked_point hs).symm.trans hq)
      exact hoff

/-- **A step of the worker goes on with the round under way.** -/
theorem Underway.worked {part : List Entry} (h : x.Underway part) (hsound : x.Sound)
    (hs : x.Steps p w) :
    (x.worked p w).Underway (part ++ (x.shown p).filter Entry.belongs) ∨
      (∃ r : Round, r.Complete ∧ part ++ (x.shown p).filter Entry.belongs = r.entries) ∧
        (x.worked p w).Underway [] := by
  cases h with
  | outside hout =>
    have hin := hout p hs.point
    obtain ⟨hnone, hnone'⟩ := hsound.unused_outside hout
    have hshown : x.shown p = (x.acting.marksAt p).map (.did none none) := by
      rw [shown_of_took (by rintro rfl; cases hin) (by rintro rfl; cases hin), hnone, hnone']
    rw [hshown, List.nil_append]
    refine .inl ?_
    rcases belongs_outside (s := x.acting) hin hs.working with ⟨hsilent, hoff⟩ | ⟨hbegan, hnext⟩
    · rw [hsilent]
      refine .outside fun q hq => ?_
      obtain rfl := Option.some.inj ((worked_point hs).symm.trans hq)
      exact hoff
    · rw [hbegan]
      exact .takingHardware (hnext ▸ worked_point hs)
  | takingHardware hp =>
    obtain rfl := Option.some.inj (hs.point.symm.trans hp)
    exact .inl (.takingTiming (worked_point hs) (worked_usedHardware hs))
  | takingTiming hp hused =>
    obtain rfl := Option.some.inj (hs.point.symm.trans hp)
    have hhardware := (worked_usedHardware hs).trans hused
    exact .inl (.round ⟨.blank, _, x.timing, []⟩ (worked_point hs) rfl hhardware
      (worked_usedTiming hs) .readingValve rfl)
  | round r hp huses hhardware htiming hat hreads =>
    obtain rfl := Option.some.inj (hs.point.symm.trans hp)
    refine Underway.worked_round hs r huses hhardware htiming hat hreads ?_
    obtain ⟨hhead, hhead'⟩ := Point.ne_head_of_usesTiming huses
    rw [shown_of_took hhead hhead', hhardware, List.filter_eq_self.mpr]
    intro e he
    obtain ⟨m, -, rfl⟩ := List.mem_map.mp he
    cases m <;> rfl

theorem Rounds.worked (h : x.Rounds) (hsound : x.Sound) (hs : x.Steps p w) :
    (x.worked p w).Rounds := by
  obtain ⟨done, part, hlog, hdone, hpart⟩ := h
  have hlog' : (x.worked p w).log.filter Entry.belongs =
      done.flatMap Round.entries ++ (part ++ (x.shown p).filter Entry.belongs) := by
    change (x.log ++ x.shown p).filter Entry.belongs = _
    rw [List.filter_append, hlog, List.append_assoc]
  rcases hpart.worked hsound hs with hpart' | ⟨⟨r, hr, heq⟩, hpart'⟩
  · exact ⟨done, _, hlog', hdone, hpart'⟩
  · refine ⟨done ++ [r], [], ?_, ?_, hpart'⟩
    · rw [hlog', heq, List.flatMap_append, List.append_nil]
      simp
    · intro r' hr'
      rcases List.mem_append.mp hr' with hr' | hr'
      · exact hdone r' hr'
      · obtain rfl := List.mem_singleton.mp hr'
        exact hr

theorem Remembered.worked (h : x.Remembered) (hsound : x.Sound) (hs : x.Steps p w) :
    (x.worked p w).Remembered where
  installed := (lastOf_append _ fun _ he => (silent_of_mem_shown he).1).trans h.installed
  chosen := (lastOf_append _ fun _ he => (silent_of_mem_shown he).2.1).trans h.chosen
  valued n t ht i :=
    (lastOf_append _ fun _ he => (silent_of_mem_shown he).2.2 n i).trans (h.valued n t ht i)
  fits := h.shown_fits hsound hs.point
  rounds := h.rounds.worked hsound hs

end Worked

/-! ## Everybody else -/

theorem Remembered.plain (h : x.Remembered) (hsound : x.Sound) {m : Move} {w : World}
    (hplain : m.isPlain = true) (hm : x.world.next m = some w) :
    Remembered { x with world := w } := by
  refine ⟨h.installed, h.chosen, h.valued, h.fits, ?_⟩
  obtain ⟨done, part, hlog, hdone, hpart⟩ := h.rounds
  refine ⟨done, part, hlog, hdone, ?_⟩
  obtain ⟨-, -, -, -, hworker⟩ := hsound.steady.bystands hplain hm
  obtain ⟨hpoint, -⟩ | ⟨hover, -, -, hpoint⟩ := hworker
  · exact hpart.stay hpoint rfl rfl
  · obtain rfl := hpart.eq_nil fun _ => Watering.outside_of_over hover
    refine .outside fun p hp => ?_
    change w.system.point? = some p at hp
    rcases hpoint with he | he <;> rw [he] at hp
    · cases hp
    · obtain rfl := Option.some.inj hp
      rfl

/-- What a trade writes, and what it does to that which is in force and to the durations. -/
inductive Writes (x y : Exchange) : Prop
  | nothing (log : y.log = x.log) (hardware : y.hardware = x.hardware)
      (timing : y.timing = x.timing) (timings : y.timings = x.timings)
  | installed (log : y.log = x.log ++ [.installed y.hardware]) (timing : y.timing = x.timing)
      (timings : y.timings = x.timings)
  | chosen (log : y.log = x.log ++ [.chosen y.timing]) (hardware : y.hardware = x.hardware)
      (timings : y.timings = x.timings)
  | supplied (t : Timing) (log : y.log = x.log ++ [.supplied x.timings.length t])
      (hardware : y.hardware = x.hardware) (timing : y.timing = x.timing)
      (timings : y.timings = x.timings ++ [t])
  | adjusted (n : Nat) (i : Interval) (ms : UInt64) (t : Timing) (made : x.timings[n]? = some t)
      (log : y.log = x.log ++ [.adjusted n i ms]) (hardware : y.hardware = x.hardware)
      (timing : y.timing = x.timing) (timings : y.timings = x.timings.set n (t.set i ms))

/-- A drop writes nothing. -/
theorem drop_frame {k : Nat} (hy : x.drop k = some y) : y.log = x.log ∧
    y.hardware = x.hardware ∧ y.timing = x.timing ∧ y.timings = x.timings := by
  obtain ⟨-, rfl⟩ | ⟨-, -, c, -, rfl⟩ := drop_cases hy <;> exact ⟨rfl, rfl, rfl, rfl⟩

theorem trade_writes {t : Trade} (hy : x.trade t = some y) : x.Writes y := by
  cases trade_outcome hy with
  | forget _ hdrop =>
    obtain ⟨hlog, hhardware, htiming, htimings⟩ := drop_frame hdrop
    exact .nothing hlog hhardware htiming htimings
  | install _ hdrop =>
    obtain ⟨hlog, hhardware, htiming, htimings⟩ := drop_frame hdrop
    exact .installed (by rw [announces, withRig, hhardware]; exact hlog) htiming htimings
  | supply t => exact .supplied t rfl rfl rfl rfl
  | choose => exact .chosen rfl rfl rfl
  | adjust ht => exact .adjusted _ _ _ _ ht rfl rfl rfl rfl
  | _ => exact .nothing rfl rfl rfl rfl

/-- What is written beside the worker's steps is not about him. -/
theorem Writes.log (h : x.Writes y) :
    ∃ new, y.log = x.log ++ new ∧ ∀ e ∈ new, e.isWorkers = false := by
  cases h with
  | nothing hlog =>
    exact ⟨[], by rw [hlog, List.append_nil], fun _ he => absurd he List.not_mem_nil⟩
  | _ =>
    rename y.log = _ => hlog
    exact ⟨_, hlog, List.forall_mem_singleton.mpr rfl⟩

theorem Writes.belongs (h : x.Writes y) :
    y.log.filter Entry.belongs = x.log.filter Entry.belongs := by
  obtain ⟨new, hlog, hnew⟩ := h.log
  have hnone : new.filter Entry.belongs = [] := by
    refine List.filter_eq_nil_iff.mpr fun e he hbelongs => ?_
    have hother := hnew e he
    cases e <;> first | exact Bool.false_ne_true hbelongs | exact Bool.false_ne_true hother.symm
  rw [hlog, List.filter_append, hnone, List.append_nil]

theorem Writes.deeds (h : x.Writes y) :
    y.log.filterMap Entry.deed? = x.log.filterMap Entry.deed? := by
  obtain ⟨new, hlog, hnew⟩ := h.log
  have hnone : new.filterMap Entry.deed? = [] := by
    refine List.filterMap_eq_nil_iff.mpr fun e he => ?_
    have hother := hnew e he
    cases e <;> first | rfl | cases hother
  rw [hlog, List.filterMap_append, hnone, List.append_nil]

theorem Writes.fits (hw : x.Writes y) (h : AllFit x.log) : AllFit y.log := by
  cases hw with
  | nothing hlog => exact hlog ▸ h
  | _ =>
    rename y.log = _ => hlog
    exact hlog ▸ h.concat trivial

theorem Writes.installed_last (hw : x.Writes y)
    (h : lastOf Entry.installed? x.log = some x.hardware) :
    lastOf Entry.installed? y.log = some y.hardware := by
  cases hw with
  | nothing hlog hhardware => rwa [hlog, hhardware]
  | installed hlog =>
    rw [hlog, lastOf_concat]
    rfl
  | chosen hlog hhardware => rwa [hlog, lastOf_concat, hhardware]
  | supplied t hlog hhardware => rwa [hlog, lastOf_concat, hhardware]
  | adjusted n i ms t hmade hlog hhardware => rwa [hlog, lastOf_concat, hhardware]

theorem Writes.chosen_last (hw : x.Writes y) (h : lastOf Entry.chosen? x.log = some x.timing) :
    lastOf Entry.chosen? y.log = some y.timing := by
  cases hw with
  | nothing hlog _ htiming => rwa [hlog, htiming]
  | installed hlog htiming => rwa [hlog, lastOf_concat, htiming]
  | chosen hlog =>
    rw [hlog, lastOf_concat]
    rfl
  | supplied t hlog _ htiming => rwa [hlog, lastOf_concat, htiming]
  | adjusted n i ms t hmade hlog _ htiming => rwa [hlog, lastOf_concat, htiming]

theorem Writes.valued (hw : x.Writes y) (h : x.Valued) : y.Valued := by
  intro n t hn i
  cases hw with
  | nothing hlog _ _ htimings =>
    rw [hlog]
    exact h n t (htimings ▸ hn) i
  | installed hlog _ htimings =>
    rw [hlog, lastOf_concat]
    exact h n t (htimings ▸ hn) i
  | chosen hlog _ htimings =>
    rw [hlog, lastOf_concat]
    exact h n t (htimings ▸ hn) i
  | supplied new hlog _ _ htimings =>
    rw [hlog, lastOf_concat, Entry.sets?]
    rw [htimings] at hn
    by_cases hlast : x.timings.length = n
    · rw [← hlast, List.getElem?_concat_length] at hn
      rw [if_pos hlast, Option.some.inj hn]
      rfl
    · have hlen := (List.getElem?_eq_some_iff.mp hn).1
      rw [List.length_append, List.length_singleton] at hlen
      rw [List.getElem?_append_left (by omega)] at hn
      rw [if_neg hlast]
      exact h n t hn i
  | adjusted m j ms old hmade hlog _ _ htimings =>
    rw [hlog, lastOf_concat, Entry.sets?]
    rw [htimings] at hn
    by_cases hsame : m = n
    · subst hsame
      rw [List.getElem?_set_self (List.getElem?_eq_some_iff.mp hmade).1] at hn
      obtain rfl := Option.some.inj hn
      rw [Timing.get_set]
      by_cases hj : j = i
      · rw [if_pos ⟨rfl, hj⟩, if_pos hj.symm]
        rfl
      · rw [if_neg (fun hboth => hj hboth.2), if_neg (fun he => hj he.symm)]
        exact h m old hmade i
    · rw [List.getElem?_set_ne hsame] at hn
      rw [if_neg (fun hboth => hsame hboth.1)]
      exact h n t hn i

theorem Remembered.reseated (h : x.Remembered) {rig : Rig} (ht : x.Reseats rig y)
    (hw : x.Writes y) : y.seat.Remembered where
  installed := hw.installed_last h.installed
  chosen := hw.chosen_last h.chosen
  valued := hw.valued h.valued
  fits := hw.fits h.fits
  rounds := by
    obtain ⟨done, part, hlog, hdone, hpart⟩ := h.rounds
    exact ⟨done, part, hw.belongs.trans hlog, hdone,
      hpart.stay ht.point ht.usedHardware ht.usedTiming⟩

theorem Remembered.next (h : x.Remembered) (hsound : x.Sound) {t : Trade} {x' : Exchange}
    (hx : x.next t = some x') : x'.Remembered := by
  obtain ⟨p, w, -, hp, hw, rfl⟩ | ⟨m, w, -, hplain, hw, rfl⟩ | ⟨y, hy, rfl⟩ := next_cases hx
  · exact h.worked hsound (hsound.steps hp hw)
  · exact h.plain hsound hplain hw
  · obtain ⟨rig, ht, -⟩ := hsound.trade hy
    exact h.reseated ht (trade_writes hy)

/-- **The log of every reachable exchange** is a row of rounds, and every entry fits. -/
theorem Reachable.remembered (h : x.Reachable) : x.Remembered := by
  induction h with
  | @wired path lines pins timing enabled s before rig guests hbefore hwired =>
    obtain ⟨-, -, -, -, hs⟩ := World.wire_eq_ok hwired
    have hrun : s.run = none := by rw [hs]
    refine ⟨rfl, rfl, ?_, ?_, [], [], rfl, fun _ hr => absurd hr List.not_mem_nil, ?_⟩
    · intro n t hn i
      cases n with
      | zero =>
        obtain rfl := Option.some.inj hn
        rfl
      | succ n => cases hn
    · have hnone : AllFit [] := by
        intro before e after hsplit
        cases before <;> cases hsplit
      exact ((hnone.concat (e := .supplied 0 s.timing) trivial).concat (e := .chosen 0)
        trivial).concat (e := .installed 0) trivial
    · refine .outside fun p hp => ?_
      change s.run.map _ = some p at hp
      rw [hrun] at hp
      cases hp
  | trade hx ht ih => exact ih.next hx.sound ht

/-! ## The journal -/

/-- The log says of the worker what the journal says. -/
structure Journaled (x : Exchange) : Prop where
  recorded : x.world.Recorded
  deeds : x.world.trace.filterMap Mark.workerDeed? = x.log.filterMap Entry.deed?

theorem deeds_shown (x : Exchange) (p : Point) : (x.shown p).filterMap Entry.deed? =
    (x.acting.marksAt p).filterMap Mark.workerDeed? := by
  unfold shown
  split
  · rfl
  · rfl
  · rw [List.filterMap_map]
    rfl

theorem Journaled.next (h : x.Journaled) (hsound : x.Sound) {t : Trade} {x' : Exchange}
    (hx : x.next t = some x') : x'.Journaled := by
  obtain ⟨p, w, -, hp, hw, rfl⟩ | ⟨m, w, -, hplain, hw, rfl⟩ | ⟨y, hy, rfl⟩ := next_cases hx
  · have hrecorded : x.facing.Recorded := by
      unfold facing
      split <;> exact ⟨h.recorded.worker, h.recorded.events⟩
    refine ⟨hrecorded.next hsound.facing_steady hw, ?_⟩
    change w.trace.filterMap _ = (x.log ++ x.shown p).filterMap _
    rw [(hsound.steps hp hw).trace, List.filterMap_append, List.filterMap_append, h.deeds,
      deeds_shown]
  · exact ⟨h.recorded.next hsound.steady hw,
      (hsound.steady.bystands hplain hw).deeds.trans h.deeds⟩
  · obtain ⟨rig, ht, -⟩ := hsound.trade hy
    have htrace : y.seat.world.trace = x.world.trace := by
      change y.world.trace = _
      rw [ht.world]
    refine ⟨h.recorded.kept hsound.steady ?_ htrace, ?_⟩
    · rw [ht.rig_eq]
      exact ht.routine
    · rw [htrace, h.deeds]
      exact (trade_writes hy).deeds.symm

theorem Reachable.journaled (h : x.Reachable) : x.Journaled := by
  induction h with
  | wired before hbefore hwired =>
    exact ⟨(World.Reachable.wired before hbefore hwired).recorded, rfl⟩
  | trade hx ht ih => exact ih.next hx.sound ht

end Exchange

end Irrigation
