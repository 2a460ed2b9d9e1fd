import Irrigation.Proofs.World.Switching

/-!
# Laps of a run

A run of moves shows the marks of the worker and, between them, where the caller replaces the
controller that the iteration under way uses (`World.recording`). What it shows of the switching is
a row of laps, of which the last may not be complete (`World.Lapped`). A lap spells the word of its
iteration: the devices that the flags name are switched on once and off once, and if the controller
was replaced on the way, and only then, the worker drops it at the end of the lap. The drop switches
off whatever the controller holds, so a device can be switched off twice, or without being on.
-/

namespace Irrigation

/-! ## Signs -/

/-- What is seen in a run: a mark, or that the caller replaces the controller that the iteration
under way uses. -/
inductive Sign
  | shown (m : Mark)
  | replaced
  deriving DecidableEq

namespace Sign

/-- The mark that is shown. -/
def mark? : Sign → Option Mark
  | .shown m => some m
  | .replaced => none

/-- What counts of a sign for the order of switching. -/
def shape? : Sign → Option Sign
  | .shown m => m.shape?.map .shown
  | .replaced => some .replaced

end Sign

/-- The signs that show the order of switching. -/
def outline (log : List Sign) : List Sign := log.filterMap Sign.shape?

theorem outline_append (log new : List Sign) : outline (log ++ new) = outline log ++ outline new :=
  List.filterMap_append

theorem outline_shown (marks : List Mark) :
    outline (marks.map .shown) = (shape marks).map .shown := by
  rw [outline, shape, List.filterMap_map, List.map_filterMap]
  rfl

theorem marks_shown (marks : List Mark) : (marks.map Sign.shown).filterMap Sign.mark? = marks := by
  rw [List.filterMap_map]
  exact List.filterMap_some

/-- The shape of the marks that are shown is in the outline. -/
theorem shape_marks (log : List Sign) :
    shape (log.filterMap Sign.mark?) = (outline log).filterMap Sign.mark? := by
  rw [shape, outline, List.filterMap_filterMap, List.filterMap_filterMap]
  refine List.filterMap_congr fun s _ => ?_
  cases s with
  | shown m => cases hm : m.shape? <;> simp [Sign.mark?, Sign.shape?, hm]
  | replaced => rfl

/-- Marks of an iteration as a run shows them. If the controller is replaced, this is somewhere
between them: after the iteration has begun, and before the worker gives up what the controller
holds. -/
inductive Signed : Bool → List Mark → List Sign → Prop
  | kept (marks : List Mark) : Signed false marks (marks.map .shown)
  | replaced {before after : List Mark} (hbegan : .began ∈ before)
    (hheld : ∀ role line, .gaveUp role line ∉ before) :
    Signed true (before ++ after) (before.map .shown ++ .replaced :: after.map .shown)

theorem Signed.append {replaced : Bool} {marks : List Mark} {signs : List Sign}
    (h : Signed replaced marks signs) (new : List Mark) :
    Signed replaced (marks ++ new) (signs ++ new.map .shown) := by
  cases h with
  | kept =>
    rw [← List.map_append]
    exact .kept _
  | replaced hbegan hheld =>
    rw [List.append_assoc, List.append_assoc, List.cons_append, ← List.map_append]
    exact .replaced hbegan hheld

theorem Signed.replace {marks : List Mark} {signs : List Sign} (h : Signed false marks signs)
    (hbegan : .began ∈ marks) (hheld : ∀ role line, .gaveUp role line ∉ marks) :
    Signed true marks (signs ++ [.replaced]) := by
  cases h with
  | kept =>
    have hsigned : Signed true (marks ++ []) _ := .replaced hbegan hheld
    rwa [List.append_nil] at hsigned

/-- The marks are those of the signs. -/
theorem Signed.marks {replaced : Bool} {marks : List Mark} {signs : List Sign}
    (h : Signed replaced marks signs) : signs.filterMap Sign.mark? = marks := by
  cases h with
  | kept => exact marks_shown marks
  | replaced =>
    rw [List.filterMap_append, marks_shown]
    exact congrArg (_ ++ ·) (marks_shown _)

/-! ## What the marks say -/

/-- What a mark shows of the flags, the durations and the stop signal is as it is in a system. -/
def Mark.Faithful (s : Watering) : Mark → Prop
  | .sees role on => on = s.enabled.get role
  | .reads which ms => ms = s.iterationTiming.get which
  | .gap pending => pending = s.stopPending
  | .waited _ _ raised _ => raised = s.stopPending
  | _ => True

/-- What the next step shows is as it is. -/
theorem faithful_of_mem_marks {s : Watering} {m : Mark} (hm : m ∈ s.marks) : m.Faithful s := by
  unfold Watering.marks at hm
  cases hp : s.point? with
  | none => simp [hp] at hm
  | some p =>
    rw [hp] at hm
    replace hm : m ∈ s.marksAt p := hm
    cases p <;> grind [Watering.marksAt, Watering.entering, Mark.Faithful, Each.get]

/-- Lines are those that the controller of the iteration holds. -/
theorem line_of_mem_marks {s : Watering} {role : Role} {line : Option Offset}
    (hm : .gaveUp role line ∈ s.marks ∨ ∃ on, .call role on line ∈ s.marks) :
    line = s.line? role := by
  unfold Watering.marks at hm
  cases hp : s.point? with
  | none => simp [hp] at hm
  | some p =>
    rw [hp] at hm
    replace hm : .gaveUp role line ∈ s.marksAt p ∨ ∃ on, .call role on line ∈ s.marksAt p := hm
    cases p <;> grind [Watering.marksAt, Watering.entering]

/-! ## What is given up -/

namespace Iteration

variable {i : Iteration}

theorem gaveUp_notMem_attempt (role r : Role) (line : Option Offset) (on takesPart : Bool) :
    .gaveUp role line ∉ attempt r on takesPart := by
  cases takesPart <;> simp [attempt]

/-- The switching of an iteration gives up nothing. -/
theorem gaveUp_notMem_switched (i : Iteration) (role : Role) (line : Option Offset) :
    .gaveUp role line ∉ i.switched := by
  have hran : .gaveUp role line ∉ i.ran := by
    simp [ran, started, opened, head, gaveUp_notMem_attempt]
  have hdropped : .gaveUp role line ∉ i.dropped := by
    simp [dropped, relieved, reread, hran, gaveUp_notMem_attempt]
  have hbefore : .gaveUp role line ∉ i.before := by
    rw [before]
    split
    · exact hran
    · exact hdropped
  have hdeactivated : .gaveUp role line ∉ i.deactivated := by
    have hgap : .gaveUp role line ∉ if i.left.all then i.gap.word else [] := by
      split <;> simp [Gap.word]
    simp [deactivated, gapped, closed, hbefore, hgap, gaveUp_notMem_attempt]
  rw [switched]
  split
  · have hcounted : .gaveUp role line ∉
        if i.cut then [] else [Mark.told (.cycleCompleted i.cycle)] := by
      split <;> simp
    simp [hdeactivated, hcounted]
  · split
    · exact hdeactivated
    · exact hdropped

/-- The worker gives up a controller once if it was replaced, and else never. -/
theorem count_gaveUp_word (i : Iteration) (role : Role) :
    i.word.count (.gaveUp role none) = if i.replaced then 1 else 0 := by
  rw [word, List.count_append, List.count_eq_zero.mpr (gaveUp_notMem_switched i role none),
    Nat.zero_add]
  cases role <;> cases i.replaced <;> rfl

theorem gaveUp_mem_word (role : Role) : .gaveUp role none ∈ i.word ↔ i.replaced = true := by
  rw [← List.count_pos_iff, count_gaveUp_word]
  cases i.replaced <;> decide

/-- What is written at a point is the beginning of the word of an iteration with a drop, or of one
without; after the drop has begun it is with one. -/
theorem At.prefix_word_of_forgets {p : Point} {marks : List Mark} (h : i.At p marks)
    {replaced : Bool} (hforgets : p.forgets = true → replaced = true) :
    marks <+: { i with replaced }.word := by
  cases hp : p.forgets with
  | false => exact (h.prefix_switched hp).trans (List.prefix_append ..)
  | true =>
    obtain rfl := hforgets hp
    cases h with
    | lettingGoPump => exact (List.prefix_append_right_inj i.switched).mpr ⟨[_], rfl⟩
    | _ => cases hp

end Iteration

namespace World

/-! ## Recordings of runs -/

/-- What a move shows. -/
def signs (w : World) : Move → List Sign
  | .work => w.system.marks.map .shown
  | .call (.start flow) => if (w.system.start flow).1 then [.shown (.told .started)] else []
  | .call (.install _) => if w.system.hardwareInUse then [.replaced] else []
  | _ => []

/-- What a run of moves shows. -/
def recording : List Move → World → List Sign
  | [], _ => []
  | m :: rest, w => w.signs m ++
    match w.next m with
    | some w' => recording rest w'
    | none => []

/-- The recording is a row of laps: complete ones, then what is shown of the one under way. -/
def Lapped (log : List Sign) (w : World) : Prop :=
  ∃ (laps : List (Iteration × List Sign)) (part : List Sign),
    outline log = laps.flatMap Prod.snd ++ part ∧
    (∀ lap ∈ laps, Signed lap.1.replaced lap.1.word lap.2) ∧
    ((part = [] ∧ ∀ p, w.system.point? = some p → p.inIteration = false) ∨
      ∃ (i : Iteration) (p : Point) (marks : List Mark), w.system.point? = some p ∧ i.At p marks ∧
        .began ∈ marks ∧ Signed w.system.replaced.isSome marks part)

variable {w w' : World} {log : List Sign}

/-- What follows when a replaced controller is forgotten is no part of the iteration. -/
theorem not_forgets_of_inIteration_nextPoint {s : Watering} {p : Point}
    (h : (s.nextPoint p).inIteration = true) : p.forgets = false := by
  cases p with
  | lettingGoPump again =>
    rw [Watering.nextPoint, not_inIteration_afterIteration] at h
    cases h
  | _ => rfl

/-- A step that does not forget a replaced controller keeps it. -/
theorem isSome_replaced_of_advances {s s' : Watering} {p : Point} (ha : s.Advances p s')
    (hforgets : p.forgets = false) : s'.replaced.isSome = s.replaced.isSome := by
  rw [ha.replaced, hforgets, if_neg Bool.false_ne_true, Option.isSome_map]

/-- Outside of iterations there is no replaced controller. -/
theorem Steady.not_replaced (h : w.Steady) {p : Point} (hp : w.system.point? = some p)
    (hout : p.inIteration = false) : w.system.replaced.isSome = false := by
  obtain ⟨hholds, hforgets⟩ := Point.of_not_inIteration hout
  refine Bool.eq_false_iff.mpr fun hsome => ?_
  rcases (h.settled p hp).inUse hsome with hused | hused
  · rw [hholds] at hused
    cases hused
  · rw [hforgets] at hused
    cases hused

/-- Outside of iterations a recording begins. -/
theorem Lapped.nil (hout : ∀ p, w.system.point? = some p → p.inIteration = false) : w.Lapped [] :=
  ⟨[], [], rfl, List.forall_mem_nil _, .inl ⟨rfl, hout⟩⟩

/-- The worker stays where it is, with the controller it has. -/
theorem Lapped.stay (h : w.Lapped log) {new : List Sign} (hnew : outline new = [])
    (hpoint : w'.system.point? = w.system.point?)
    (hreplaced : w'.system.replaced = w.system.replaced) : w'.Lapped (log ++ new) := by
  unfold Lapped
  rw [hpoint, hreplaced, outline_append, hnew, List.append_nil]
  exact h

/-- A worker that is over leaves complete laps. -/
theorem Lapped.relieved (h : w.Lapped log) (hover : w.system.isWorking = false) {new : List Sign}
    (hnew : outline new = [])
    (hpoint : w'.system.point? = none ∨ w'.system.point? = some .starting) :
    w'.Lapped (log ++ new) := by
  have hout : ∀ p, w'.system.point? = some p → p.inIteration = false := by
    rintro p hp
    rcases hpoint with he | he <;> rw [he] at hp <;> cases hp
    rfl
  obtain ⟨laps, part, hlog, hlaps, ⟨rfl, -⟩ | ⟨i, p, marks, hp, hat, -⟩⟩ := h
  · refine ⟨laps, [], ?_, hlaps, .inl ⟨rfl, hout⟩⟩
    rw [outline_append, hnew, List.append_nil, hlog]
  · rw [Watering.isWorking, hp] at hover
    cases hat <;> cases hover

/-- The caller replaces the controller of the iteration under way. -/
theorem Lapped.replaced (h : w.Lapped log) (huse : w.system.hardwareInUse = true)
    (hpoint : w'.system.point? = w.system.point?) (hwas : w.system.replaced = none)
    (his : w'.system.replaced.isSome = true) : w'.Lapped (log ++ [.replaced]) := by
  obtain ⟨q, hq, hholds⟩ : ∃ q, w.system.point? = some q ∧ q.holdsHardware = true := by
    cases hrun : w.system.run with
    | none => simp [Watering.hardwareInUse, hrun] at huse
    | some worker =>
      rw [Watering.hardwareInUse, hrun, Bool.and_eq_true] at huse
      exact ⟨worker.point, by rw [Watering.point?, hrun]; rfl, huse.1⟩
  obtain ⟨laps, part, hlog, hlaps, ⟨rfl, hout⟩ | ⟨i, p, marks, hp, hat, hbegan, hsigned⟩⟩ := h
  · rw [(Point.of_not_inIteration (hout q hq)).1] at hholds
    cases hholds
  · obtain rfl := Option.some.inj (hp.symm.trans hq)
    have hforgets : p.forgets = false := by
      cases p <;> first | rfl | cases hholds
    refine ⟨laps, part ++ [.replaced], ?_, hlaps,
      .inr ⟨i, p, marks, hpoint.trans hp, hat, hbegan, ?_⟩⟩
    · rw [outline_append, hlog, List.append_assoc]
      rfl
    · rw [hwas] at hsigned
      rw [his]
      refine hsigned.replace hbegan fun role line hmem => ?_
      exact i.gaveUp_notMem_switched role line ((hat.prefix_switched hforgets).subset hmem)

/-- At the end of an iteration the word says whether the controller was replaced. -/
theorem replaced_of_word (hsteady : w.Steady) {i i' : Iteration} {p : Point} {marks : List Mark}
    (hp : w.system.point? = some p) (hat : i.At p marks)
    (hout : (Watering.nextPoint (w.system.actAs .worker) p).inIteration = false)
    (hword : marks ++ shape ((w.system.actAs .worker).marksAt p) = i'.word) :
    i'.replaced = w.system.replaced.isSome := by
  rcases Iteration.letsGo_of_end hat.inIteration hout with ⟨again, rfl⟩ | ⟨again, rfl⟩
  · have hkept : ¬w.system.replaced.isSome = true := by
      intro hsome
      rw [Watering.nextPoint, if_pos (by exact hsome)] at hout
      cases hout
    -- Nothing was given up, so the word is that of an iteration without a drop.
    rw [Bool.eq_false_iff.mpr hkept, Bool.eq_false_iff, Ne, ← Iteration.gaveUp_mem_word .valve,
      ← hword, Watering.marksAt, if_neg (by exact hkept)]
    intro hmem
    rw [shape, List.filterMap_nil, List.append_nil] at hmem
    exact i.gaveUp_notMem_switched _ _ ((hat.prefix_switched rfl).subset hmem)
  · rw [(hsteady.settled _ hp).forgets rfl, ← Iteration.gaveUp_mem_word .pump, ← hword]
    exact List.mem_append_right _ List.mem_cons_self

theorem Lapped.worked (h : w.Lapped log) (hsteady : w.Steady) (hwork : w.system.isWorking)
    (hs : w'.system = w.system.step) : w'.Lapped (log ++ w.system.marks.map .shown) := by
  obtain ⟨p, s', hp, hover, hmarks, hstep, ha⟩ := hsteady.step hwork
  have hpoint : w'.system.point? = some (Watering.nextPoint (w.system.actAs .worker) p) := by
    rw [hs, hstep]
    exact ha.point
  have hreplaced (hforgets : p.forgets = false) :
      w'.system.replaced.isSome = w.system.replaced.isSome := by
    have hkept := isSome_replaced_of_advances ha hforgets
    rw [hs, hstep]
    exact hkept
  obtain ⟨laps, part, hlog, hlaps, hpart⟩ := h
  have hlog' : outline (log ++ w.system.marks.map .shown) = laps.flatMap Prod.snd ++
      (part ++ (shape ((w.system.actAs .worker).marksAt p)).map .shown) := by
    rw [outline_append, outline_shown, hlog, hmarks, List.append_assoc]
  rcases hpart with ⟨rfl, hout⟩ | ⟨i, q, marks, hq, hat, hbegan, hsigned⟩
  · rcases outside_next (s := w.system.actAs .worker) (hout p hp) hover with
      ⟨hnone, hnext⟩ | ⟨hbegan, hnext⟩
    · refine ⟨laps, [], by rw [hlog', hnone]; rfl, hlaps, .inl ⟨rfl, fun q hq => ?_⟩⟩
      rw [hpoint] at hq
      obtain rfl := Option.some.inj hq
      exact hnext
    · refine ⟨laps, [.shown .began], by rw [hlog', hbegan]; rfl, hlaps,
        .inr ⟨.blank, .takingHardware, [.began], by rw [hpoint, hnext], .takingHardware,
          List.mem_cons_self, ?_⟩⟩
      rw [hreplaced (Point.of_not_inIteration (hout p hp)).2, hsteady.not_replaced hp (hout p hp)]
      exact .kept [.began]
  · obtain rfl := Option.some.inj (hp.symm.trans hq)
    have hsigned' := hsigned.append (shape ((w.system.actAs .worker).marksAt p))
    rcases hat.next (w.system.actAs .worker) with ⟨i', hat'⟩ | ⟨i', hnext, hword⟩
    · refine ⟨laps, _, hlog', hlaps, .inr ⟨i', _, _, hpoint, hat',
        List.mem_append_left _ hbegan, ?_⟩⟩
      rw [hreplaced (not_forgets_of_inIteration_nextPoint hat'.inIteration)]
      exact hsigned'
    · have hout : (Watering.nextPoint (w.system.actAs .worker) p).inIteration = false := by
        rw [hnext]
        exact not_inIteration_afterIteration _
      rw [hword, ← replaced_of_word hsteady hp hat hout hword] at hsigned'
      refine ⟨laps ++ [(i', part ++ (shape ((w.system.actAs .worker).marksAt p)).map .shown)], [],
        ?_, ?_, .inl ⟨rfl, fun q hq => ?_⟩⟩
      · rw [hlog', List.flatMap_append, List.flatMap_singleton, List.append_nil]
      · intro lap hlap
        rcases List.mem_append.mp hlap with hold | hlast
        · exact hlaps lap hold
        · obtain rfl := List.mem_singleton.mp hlast
          exact hsigned'
      · rw [hpoint] at hq
        obtain rfl := Option.some.inj hq
        exact hout

/-- Of the calls only an install replaces the controller of an iteration. -/
theorem replaced_of_call {c : Call} (haside : c.isAside = true) (hc : w.call c = some w')
    (hsigns : w.signs (.call c) = []) : w'.system.replaced = w.system.replaced := by
  cases c with
  | start flow => cases haside
  | askStop origin => cases haside
  | replaceTiming t =>
    obtain rfl := Option.some.inj hc
    rw [Watering.replaceTiming]
    split
    · simp only [log, record, Watering.replaced, Option.bind_map, Function.comp_def]
    · rfl
  | rebind wanted =>
    obtain ⟨hfree, rfl⟩ := call_rebind hc
    rw [Watering.rebind, Watering.awaitLines_of_free hfree]
    rfl
  | build pins =>
    simp only [call] at hc
    split at hc <;> obtain rfl := Option.some.inj hc <;> rfl
  | install i =>
    obtain ⟨c, -, hwait, rfl⟩ := call_install hc
    have huse : ¬w.system.hardwareInUse = true := by
      intro huse
      rw [signs, if_pos huse] at hsigns
      cases hsigns
    rw [Watering.replaceHardware, if_neg huse,
      Watering.awaitLines_of_free (hwait.resolve_left huse)]
    rfl
  | discard i =>
    obtain ⟨c, -, rfl⟩ := call_discard hc
    rfl
  | say e =>
    obtain ⟨-, rfl⟩ := call_say hc
    rfl
  | _ =>
    obtain rfl := Option.some.inj hc
    rfl

/-- A call that neither starts nor stops a job shows nothing, or that a controller is replaced. -/
theorem signs_aside {c : Call} (haside : c.isAside = true) : w.signs (.call c) = [] ∨
    ∃ i, c = .install i ∧ w.system.hardwareInUse = true ∧ w.signs (.call c) = [.replaced] := by
  cases c with
  | start flow => cases haside
  | install i =>
    cases huse : w.system.hardwareInUse with
    | false => exact .inl (if_neg (Bool.eq_false_iff.mp huse))
    | true => exact .inr ⟨i, rfl, rfl, if_pos huse⟩
  | _ => exact .inl rfl

theorem Lapped.called (h : w.Lapped log) (hsteady : w.Steady) {c : Call}
    (hc : w.call c = some w') : w'.Lapped (log ++ w.signs (.call c)) := by
  cases haside : c.isAside with
  | true =>
    have hpoint := (call_aside haside hc).1.point
    rcases signs_aside (w := w) haside with hnone | ⟨i, rfl, huse, hsigns⟩
    · rw [hnone]
      exact h.stay rfl hpoint (replaced_of_call haside hc hnone)
    · obtain ⟨c, -, -, rfl⟩ := call_install hc
      obtain ⟨-, hsome, -, -, -, hwas⟩ := Watering.replaceHardware_of_use huse c
      rw [hsigns]
      exact h.replaced huse hpoint hwas (by rw [hsome]; rfl)
  | false =>
    cases c with
    | start flow =>
      rw [signs]
      obtain ⟨reason, -, hstart, rfl⟩ | ⟨hrefusal, haccepted, rfl⟩ := call_start hc
      · rw [hstart]
        exact h.stay rfl rfl rfl
      · obtain ⟨hidle, hstart⟩ := hsteady.start_eq hrefusal
        rw [if_pos haccepted]
        refine h.relieved (hsteady.not_working hidle) rfl (.inr ?_)
        rw [hstart]
        rfl
    | askStop origin =>
      obtain ⟨-, rfl⟩ | ⟨hjob, rfl⟩ := call_askStop hc
      · exact h.stay rfl rfl rfl
      · refine h.relieved (hsteady.not_working_of_no_job hjob) rfl (.inl ?_)
        rw [hsteady.declineStop_eq]
        rfl
    | _ => cases haside

theorem Lapped.next (h : w.Lapped log) (hsteady : w.Steady) {m : Move}
    (hm : w.next m = some w') : w'.Lapped (log ++ w.signs m) := by
  cases m with
  | work =>
    obtain ⟨hwork, rfl⟩ := next_work hm
    exact h.worked hsteady hwork rfl
  | call c => exact h.called hsteady (next_call hm).2
  | raiseStop =>
    obtain ⟨origin, -, rfl⟩ := next_raiseStop hm
    refine h.stay rfl (point?_raiseStop _) ?_
    simp only [Watering.raiseStop, Watering.replaced, Option.bind_map, Function.comp_def]
  | joinWorker =>
    obtain ⟨origin, -, hover, rfl⟩ := next_joinWorker hm
    refine h.relieved hover rfl (.inl ?_)
    rw [hsteady.concludeStop_eq]
    rfl
  | guest g =>
    obtain rfl := Option.some.inj hm
    exact h.stay rfl rfl rfl

/-- What a run shows of the worker is what the trace says. -/
theorem next_trace {m : Move} (hm : w.next m = some w') :
    w'.trace = w.trace ++ (w.signs m).filterMap Sign.mark? := by
  cases m with
  | work =>
    obtain ⟨-, rfl⟩ := next_work hm
    rw [signs, marks_shown]
  | call c =>
    have hc := (next_call hm).2
    cases haside : c.isAside with
    | true =>
      rw [(call_aside haside hc).2.2]
      rcases signs_aside (w := w) haside with hsigns | ⟨i, -, -, hsigns⟩ <;> rw [hsigns] <;>
        exact (List.append_nil _).symm
    | false =>
      cases c with
      | start flow =>
        rw [signs]
        obtain ⟨reason, -, hstart, rfl⟩ | ⟨-, haccepted, rfl⟩ := call_start hc
        · rw [hstart]
          exact (List.append_nil _).symm
        · rw [if_pos haccepted]
          rfl
      | askStop origin =>
        obtain ⟨-, rfl⟩ | ⟨-, rfl⟩ := call_askStop hc <;> exact (List.append_nil _).symm
      | _ => cases haside
  | raiseStop =>
    obtain ⟨origin, -, rfl⟩ := next_raiseStop hm
    exact (List.append_nil _).symm
  | joinWorker =>
    obtain ⟨origin, -, -, rfl⟩ := next_joinWorker hm
    exact (List.append_nil _).symm
  | guest g =>
    obtain rfl := Option.some.inj hm
    exact (List.append_nil _).symm

/-! ## Runs -/

theorem recording_cons {m : Move} (hm : w.next m = some w') (rest : List Move) :
    recording (m :: rest) w = w.signs m ++ recording rest w' := by
  rw [recording, hm]

theorem run_trace {moves : List Move} (hrun : run moves w = some w') :
    w'.trace = w.trace ++ (recording moves w).filterMap Sign.mark? := by
  induction moves generalizing w with
  | nil =>
    obtain rfl := Option.some.inj hrun
    exact (List.append_nil _).symm
  | cons m rest ih =>
    obtain ⟨w₁, hm, hrest⟩ := Option.bind_eq_some_iff.mp hrun
    rw [ih hrest, next_trace hm, recording_cons hm, List.filterMap_append, List.append_assoc]

theorem Lapped.run {moves : List Move} (h : w.Lapped log) (hw : w.Reachable)
    (hrun : run moves w = some w') : w'.Lapped (log ++ recording moves w) := by
  induction moves generalizing w log with
  | nil =>
    obtain rfl := Option.some.inj hrun
    exact h.stay rfl rfl rfl
  | cons m rest ih =>
    obtain ⟨w₁, hm, hrest⟩ := Option.bind_eq_some_iff.mp hrun
    have hlater := ih (h.next hw.steady hm) (hw.move hm) hrest
    rwa [List.append_assoc, ← recording_cons hm] at hlater

/-- A reachable world is what some run has led to. -/
theorem Reachable.lapped (h : w.Reachable) :
    ∃ log, w.Lapped log ∧ w.trace = log.filterMap Sign.mark? := by
  induction h with
  | wired before hbefore hwired =>
    obtain ⟨rig', -, -, -, hs⟩ := wire_eq_ok hwired
    refine ⟨[], .nil fun p hp => ?_, rfl⟩
    rw [hs] at hp
    cases hp
  | @move w w' m hw hm ih =>
    obtain ⟨log, hlapped, htrace⟩ := ih
    refine ⟨log ++ w.signs m, hlapped.next hw.steady hm, ?_⟩
    rw [next_trace hm, htrace, List.filterMap_append]

/-- What is shown of the lap under way is the beginning of a word, by which the controller is
given up only if it was replaced. -/
theorem Lapped.words (h : w.Lapped log) (hsteady : w.Steady) :
    ∃ (laps : List (Iteration × List Sign)) (part : List Sign),
      outline log = laps.flatMap Prod.snd ++ part ∧
      (∀ lap ∈ laps, Signed lap.1.replaced lap.1.word lap.2) ∧
      (∃ (i : Iteration) (marks : List Mark), marks <+: i.word ∧ Signed i.replaced marks part) ∧
      ((∀ p, w.system.point? = some p → p.inIteration = false) → part = []) := by
  obtain ⟨laps, part, hlog, hlaps, ⟨rfl, -⟩ | ⟨i, p, marks, hp, hat, -, hsigned⟩⟩ := h
  · exact ⟨laps, [], hlog, hlaps, ⟨.blank, [], List.nil_prefix, .kept []⟩, fun _ => rfl⟩
  · refine ⟨laps, part, hlog, hlaps, ⟨{ i with replaced := w.system.replaced.isSome }, marks,
      hat.prefix_word_of_forgets (hsteady.settled p hp).forgets, hsigned⟩, fun hout => ?_⟩
    have hin := hat.inIteration
    rw [hout p hp] at hin
    cases hin

/-- **What is shown is complete words**, and during an iteration the beginning of one. -/
theorem Reachable.words (h : w.Reachable) : ∃ (done : List Iteration) (part : List Mark),
    shape w.trace = done.flatMap Iteration.word ++ part ∧ (∃ i : Iteration, part <+: i.word) ∧
      ((∀ p, w.system.point? = some p → p.inIteration = false) → part = []) := by
  obtain ⟨log, hlapped, htrace⟩ := h.lapped
  obtain ⟨laps, part, hlog, hlaps, ⟨i, marks, hmarks, hsigned⟩, hout⟩ := hlapped.words h.steady
  refine ⟨laps.map Prod.fst, marks, ?_, ⟨i, hmarks⟩, fun hp => ?_⟩
  · have hdone : laps.flatMap (fun lap => lap.2.filterMap Sign.mark?) =
        laps.flatMap (fun lap => lap.1.word) :=
      List.flatMap_congr fun lap hlap => (hlaps lap hlap).marks
    rw [htrace, shape_marks, hlog, List.filterMap_append, List.filterMap_flatMap, hdone,
      hsigned.marks, List.flatMap_map]
  · have hnone := hsigned.marks
    rw [hout hp] at hnone
    exact hnone.symm

/-! ## The order -/

/-- What it means that a run from `before` to `w`, which shows `log`, switches in order. -/
structure SwitchesInOrder (before : World) (log : List Sign) (w : World) : Prop where
  /-- The marks that are shown are those that the trace has gained. -/
  shown : w.trace = before.trace ++ log.filterMap Sign.mark?
  /-- The switching shown is a row of laps, each with the word of its iteration; the last word may
  be incomplete while its iteration is under way. A word ends with the drop of the controller if
  this was replaced during the iteration, and only then. -/
  words : ∃ (laps : List (Iteration × List Sign)) (part : List Sign),
    outline log = laps.flatMap Prod.snd ++ part ∧
    (∀ lap ∈ laps, Signed lap.1.replaced lap.1.word lap.2) ∧
    (∃ (i : Iteration) (marks : List Mark), marks <+: i.word ∧ Signed i.replaced marks part) ∧
    ((∀ p, w.system.point? = some p → p.inIteration = false) → part = [])
  /-- In a word, each device of the iteration is switched on once and off once, and the other
  devices are not switched, the drop apart. -/
  once : ∀ (i : Iteration) (role : Role) (on : Bool),
    Iteration.tally role on i.word = if i.on.get role then 1 else 0
  /-- A drop is the end of a word: the valve's line is given up, then the pump's, whether they are
  devices of the iteration or not. Nothing else is given up. -/
  dropped : ∀ i : Iteration, ∃ marks : List Mark,
    i.word = marks ++ (if i.replaced then [.gaveUp .valve none, .gaveUp .pump none] else []) ∧
    ∀ (role : Role) (line : Option Offset), .gaveUp role line ∉ marks
  /-- Flags, durations and the stop signal are what the marks say when they are shown. -/
  faithful : ∀ m ∈ w.system.marks, m.Faithful w.system
  /-- The lines that are switched or given up are those that the controller of the iteration holds
  then. -/
  lines : ∀ (role : Role) (line : Option Offset),
    (.gaveUp role line ∈ w.system.marks ∨ ∃ on, .call role on line ∈ w.system.marks) →
      line = w.system.line? role
  /-- What the worker has done, by the journal, is what the marks say: the calls of bound roles,
  the waits and the reads. -/
  deeds : w.system.rig.workerDeeds = w.trace.filterMap Mark.workerDeed?
  /-- Between the first and the last call of a sequence nobody else touches the controller of the
  iteration. -/
  held : ∀ (m : Move) (w' : World), w.next m = some w' → m ≠ .work →
    w.system.linesHeld = true → w'.system.iterationHardware = w.system.iterationHardware
  /-- A move of lines waits for the end of the sequence. -/
  waits : ∀ wanted : Each (Option Offset), w.system.awaitLines.linesHeld = false ∧
    w.system.rebind wanted = w.system.awaitLines.rebind wanted

/-- **The worker switches in order**, whatever the caller does meanwhile, and drops a controller
only if the caller has replaced it. -/
theorem switches_in_order {before : World} {moves : List Move} (h : before.Reachable)
    (hout : ∀ p, before.system.point? = some p → p.inIteration = false)
    (hrun : run moves before = some w) : before.SwitchesInOrder (recording moves before) w := by
  have hw : w.Reachable := h.run moves hrun
  exact {
    shown := run_trace hrun
    words := ((Lapped.nil hout).run h hrun).words hw.steady
    once := Iteration.tally_word
    dropped := fun i => ⟨i.switched, rfl, i.gaveUp_notMem_switched⟩
    faithful := fun _ => faithful_of_mem_marks
    lines := fun _ _ => line_of_mem_marks
    deeds := hw.recorded.worker
    held := fun _ _ hm hne hheld => hw.steady.iterationHardware_of_held hm hne hheld
    waits := fun _ => ⟨hw.steady.awaitLines, awaitLines_rebind hw.steady.awaitLines _⟩ }

/-- A run in which the caller replaces the controller while the devices are on, and then raises a
stop in the gap between the two calls that switch off. -/
def replacedThenStopped : List Move :=
  [.call (.build ⟨⟨18, .activeHigh⟩, ⟨28, .activeLow⟩⟩), .call (.start none)] ++
    List.replicate 10 .work ++ [.call (.install 0)] ++ List.replicate 12 .work ++
    [.call (.askStop .shutdown), .raiseStop] ++ List.replicate 5 .work

/-- A stop cuts the gap short, the pump is switched off all the same, and the controller that was
replaced is dropped. -/
theorem in_order_when_gap_is_cut : ∃ (s : Watering) (w : World),
    Watering.wire (Rig.openChip "gpiochip0" 54) ⟨⟨17, .activeHigh⟩, ⟨27, .activeLow⟩⟩
      ⟨3000, 4000, 500⟩ (.both true) = .ok s ∧
    run replacedThenStopped { system := s } = some w ∧
    (recording replacedThenStopped { system := s }).contains .replaced = true ∧
    w.trace.drop (w.trace.length - 5) = [.waited .separation 500 true false,
      .call .pump false (some 27), .waited .deactivation 4000 true false,
      .gaveUp .valve (some 17), .gaveUp .pump (some 27)] ∧
    SwitchesInOrder { system := s } (recording replacedThenStopped { system := s }) w := by
  obtain ⟨s, hs, hrest⟩ := (Option.any_eq_true (fun s : Watering =>
      s.point?.isNone && (run replacedThenStopped { system := s }).any fun w : World =>
        (recording replacedThenStopped { system := s }).contains .replaced &&
          w.trace.drop (w.trace.length - 5) == [.waited .separation 500 true false,
            .call .pump false (some 27), .waited .deactivation 4000 true false,
            .gaveUp .valve (some 17), .gaveUp .pump (some 27)]) _).mp
    (show Option.any _ (Watering.wire (Rig.openChip "gpiochip0" 54)
      ⟨⟨17, .activeHigh⟩, ⟨27, .activeLow⟩⟩ ⟨3000, 4000, 500⟩ (.both true)).toOption = true by rfl)
  obtain ⟨hidle, hruns⟩ := Bool.and_eq_true_iff.mp hrest
  obtain ⟨w, hrun, hfacts⟩ := (Option.any_eq_true _ _).mp hruns
  obtain ⟨hreplaced, hmarks⟩ := Bool.and_eq_true_iff.mp hfacts
  have hwired := eq_ok_of_toOption hs
  refine ⟨s, w, hwired, hrun, hreplaced, by simpa using hmarks,
    switches_in_order (.wired [] rfl hwired) (fun p hp => ?_) hrun⟩
  rw [Option.isNone_iff_eq_none.mp hidle] at hp
  cases hp

/-- How often it is tried to switch a device off: a controller that is dropped switches off what
it holds. -/
def offs (role : Role) (trace : List Mark) : Nat :=
  trace.countP fun
    | .call r false _ => decide (r = role)
    | .gaveUp r (some _) => decide (r = role)
    | _ => false

/-- An iteration of the valve alone whose controller is replaced switches the valve off twice, and
the pump too. -/
theorem not_only_devices_of_the_iteration : ¬∀ (w : World) (i : Iteration), w.Reachable →
    shape w.trace = i.word → ∀ role, offs role w.trace = if i.on.get role then 1 else 0 := by
  intro hclaim
  obtain ⟨w, hw, hfacts⟩ := (Option.any_eq_true
    (fun w : World => shape w.trace == Iteration.word ⟨⟨true, false⟩, 3000, false, ⟨true, false⟩,
      ⟨0, false, false⟩, 4000, false, 1, true⟩ && offs .pump w.trace == 1) _).mp
    (show Option.any _ (after ⟨⟨17, .activeHigh⟩, ⟨27, .activeLow⟩⟩
      ([.call (.enable .pump false), .call (.build ⟨⟨18, .activeHigh⟩, ⟨28, .activeLow⟩⟩),
        .call (.start none)] ++ List.replicate 10 .work ++ [.call (.install 0)] ++
        List.replicate 15 .work)) = true by rfl)
  obtain ⟨hword, hoffs⟩ := Bool.and_eq_true_iff.mp hfacts
  have hnone := hclaim w _ (reachable_of_after hw) (eq_of_beq hword) .pump
  rw [eq_of_beq hoffs] at hnone
  cases hnone

end World

end Irrigation
