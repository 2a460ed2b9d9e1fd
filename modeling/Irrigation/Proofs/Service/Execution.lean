import Irrigation.Proofs.Service.Clamping
import Irrigation.Proofs.Service.Following

/-!
# Watering lines

A line with watering options is carried out command by command
(`World.Reachable.follows_handleAll`). The order of the commands decides what a failure leaves
behind: only moves fail, and only a stop and the move of the valve can come before one. So a line
that fails has set nothing and started nothing, and a line that does not fail has done all that it
asks for (`World.carries_out`). Both hold whatever the worker and third parties do while the line is
carried out.
-/

namespace Irrigation

/-! ## The last command about a setting -/

namespace WateringCommand

variable {limits : Limits} {cs : List WateringCommand} {c : WateringCommand} {α : Type}
  {g : Settings → α} {a : α}

/-- What no command is about stays as it is. -/
theorem settle_none (h : ∀ c ∈ cs, ∀ x, g (c.settle limits x) = g x) (x : Settings) :
    g (cs.foldl (settle limits) x) = g x := by
  induction cs generalizing x with
  | nil => rfl
  | cons c rest ih =>
    rw [List.forall_mem_cons] at h
    rw [List.foldl_cons, ih h.2, h.1]

/-- The last command that is about something decides it. -/
theorem settle_last (hordered : cs.Pairwise fun a b => a.rank < b.rank) (hc : c ∈ cs)
    (hset : ∀ x, g (c.settle limits x) = a)
    (hrest : ∀ c' ∈ cs, c.rank < c'.rank → ∀ x, g (c'.settle limits x) = g x) (x : Settings) :
    g (cs.foldl (settle limits) x) = a := by
  obtain ⟨before, after, rfl⟩ := List.append_of_mem hc
  rw [List.pairwise_append, List.pairwise_cons] at hordered
  have hafter : ∀ c' ∈ after, ∀ x, g (c'.settle limits x) = g x := fun c' hc' =>
    hrest c' (List.mem_append_right _ (List.mem_cons_of_mem _ hc')) (hordered.2.1.1 c' hc')
  rw [List.foldl_append, List.foldl_cons, settle_none hafter, hset]

/-- What commands of one rank are about is decided by the one that is there. -/
theorem settle_given {β : Type} {value : Option β} {f : β → WateringCommand} {put : β → α}
    (hordered : cs.Pairwise fun a b => a.rank < b.rank)
    (hmem : ∀ b, f b ∈ cs ↔ value = some b) (hrank : ∀ b b', (f b).rank = (f b').rank)
    (hset : ∀ b x, g ((f b).settle limits x) = put b)
    (hother : ∀ c, (∀ b, c ≠ f b) → ∀ x, g (c.settle limits x) = g x) (x : Settings) :
    g (cs.foldl (settle limits) x) = (value.map put).getD (g x) := by
  cases value with
  | some b =>
    refine settle_last hordered ((hmem b).mpr rfl) (hset b) (fun c' _ hlt => hother c' ?_) x
    rintro b' rfl
    rw [hrank b' b] at hlt
    exact Nat.lt_irrefl _ hlt
  | none =>
    refine settle_none (fun c hc => hother c ?_) x
    rintro b rfl
    cases (hmem b).mp hc

/-- A command about a flag sets it. -/
theorem enabled_settle (r : Role) (on : Bool) (x : Settings) :
    ((WateringCommand.enable r on).settle limits x).enabled.get r = on :=
  (Each.get_set ..).trans (if_pos rfl)

/-- No other command does. -/
theorem enabled_settle_other {r : Role} (hc : ∀ on, c ≠ .enable r on) (x : Settings) :
    (c.settle limits x).enabled.get r = x.enabled.get r := by
  cases c with
  | enable q on =>
    have hne : r ≠ q := by
      rintro rfl
      exact hc on rfl
    exact (Each.get_set ..).trans (if_neg hne)
  | _ => rfl

end WateringCommand

namespace WateringOptions

open WateringCommand

variable {o : WateringOptions} {limits : Limits}

/-- The settings that the commands of a line leave. -/
def settings (o : WateringOptions) (limits : Limits) (x : Settings) : Settings :=
  o.commands.foldl (settle limits) x

/-- A flag is lowered if that is asked for, else raised if that is asked for. -/
theorem enabled_settings (o : WateringOptions) (limits : Limits) (x : Settings) (r : Role) :
    (o.settings limits x).enabled.get r =
      if o.disable.get r then false else if o.enable.get r then true else x.enabled.get r := by
  have hordered := o.ranked_commands.ordered
  unfold settings
  cases hdisable : o.disable.get r with
  | true =>
    rw [if_pos rfl]
    refine settle_last (g := fun x => x.enabled.get r) hordered
      (mem_commands.mpr (show o.Asks (.enable r false) from hdisable)) (enabled_settle r false) ?_ x
    intro c' _ hrank x
    refine enabled_settle_other ?_ x
    rintro on rfl
    cases r <;> cases on <;> simp [rank] at hrank
  | false =>
    have hnot : WateringCommand.enable r false ∉ o.commands := by
      rw [mem_commands, Asks, hdisable]
      exact Bool.false_ne_true
    rw [if_neg Bool.false_ne_true]
    cases henable : o.enable.get r with
    | true =>
      rw [if_pos rfl]
      refine settle_last (g := fun x => x.enabled.get r) hordered
        (mem_commands.mpr (show o.Asks (.enable r true) from henable)) (enabled_settle r true) ?_ x
      intro c' hc' hrank x
      refine enabled_settle_other ?_ x
      rintro (_ | _) rfl
      · exact hnot hc'
      · exact absurd hrank (Nat.lt_irrefl _)
    | false =>
      rw [if_neg Bool.false_ne_true]
      refine settle_none (g := fun x => x.enabled.get r) (fun c hc => enabled_settle_other ?_) x
      rintro (_ | _) rfl
      · exact hnot hc
      · rw [mem_commands, Asks, henable] at hc
        cases hc

/-- A duration is the one that is asked for, if one is. -/
theorem timing_settings (o : WateringOptions) (limits : Limits) (x : Settings) (i : Interval) :
    (o.settings limits x).timing.get i =
      ((o.duration? i).map fun ms => .ofNat (clamp limits.maxDurationMs.toNat ms)).getD
        (x.timing.get i) := by
  refine settle_given (g := fun x => x.timing.get i) (f := .setDuration i)
    o.ranked_commands.ordered (fun ms => mem_commands) (fun _ _ => by cases i <;> rfl)
    (fun ms x => (Timing.get_set ..).trans (if_pos rfl)) (fun c hc x => ?_) x
  cases c with
  | setDuration j ms =>
    have hne : i ≠ j := by
      rintro rfl
      exact hc ms rfl
    exact (Timing.get_set ..).trans (if_neg hne)
  | _ => rfl

/-- A line is the one that is asked for, if one is. -/
theorem lines_settings (o : WateringOptions) (limits : Limits) (x : Settings) (r : Role) :
    (o.settings limits x).lines.get r =
      ((o.line.get r).map fun line => .ofNat (clamp limits.maxPinOffset.toNat line)).getD
        (x.lines.get r) := by
  refine settle_given (g := fun x => x.lines.get r) (f := .setLine r)
    o.ranked_commands.ordered (fun line => mem_commands) (fun _ _ => by cases r <;> rfl)
    (fun line x => (Each.get_set ..).trans (if_pos rfl)) (fun c hc x => ?_) x
  cases c with
  | setLine q line =>
    have hne : r ≠ q := by
      rintro rfl
      exact hc line rfl
    exact (Each.get_set ..).trans (if_neg hne)
  | _ => rfl

/-! ## What comes before a move -/

/-- The commands of a line before the move of a device. -/
def beforeMove (o : WateringOptions) : Role → List WateringCommand
  | .valve => ifSet o.stop .stop
  | .pump => ifSet o.stop .stop ++ ifGiven o.line.valve (.setLine .valve)

theorem commands_of_move {r : Role} {line : Int} (hline : o.line.get r = some line) :
    ∃ after, o.commands = o.beforeMove r ++ .setLine r line :: after := by
  cases r with
  | valve =>
    have hvalve : o.line.valve = some line := hline
    simp only [commands, hvalve, ifGiven, Option.map_some, Option.toList_some, List.append_assoc,
      List.cons_append, List.nil_append]
    exact ⟨_, rfl⟩
  | pump =>
    have hpump : o.line.pump = some line := hline
    simp only [commands, hpump, ifGiven, Option.map_some, Option.toList_some, List.append_assoc,
      List.cons_append, List.nil_append, beforeMove]
    exact ⟨_, rfl⟩

/-- **Only a stop and the move of the valve come before a move.** -/
theorem eq_beforeMove {r : Role} {line : Int} {before after : List WateringCommand}
    (h : o.commands = before ++ .setLine r line :: after) :
    o.line.get r = some line ∧ before = o.beforeMove r := by
  have hline : o.line.get r = some line := by
    have hmem : WateringCommand.setLine r line ∈ o.commands := by
      rw [h]
      exact List.mem_append_right _ List.mem_cons_self
    exact mem_commands.mp hmem
  obtain ⟨rest, hrest⟩ := commands_of_move hline
  -- The move is there once, so there is one way to cut the list at it.
  have hnodup := nodup_of_ordered o.ranked_commands.ordered
  rw [hrest, List.nodup_append, List.nodup_cons] at hnodup
  have hfront : WateringCommand.setLine r line ∉ o.beforeMove r :=
    fun hmem => hnodup.2.2 _ hmem _ List.mem_cons_self rfl
  have hcut := (List.append_cons_inj_of_notMem hfront hnodup.2.1.1).mp (hrest.symm.trans h)
  exact ⟨hline, hcut.1.symm⟩

end WateringOptions

namespace World

variable {w w' : World} {sv : Service}

/-! ## The service -/

/-- The caller attends to other things. -/
theorem attends_aside : Move.Attends fun m => m.act? = none :=
  ⟨rfl, fun _ => rfl, rfl, rfl⟩

/-- A service carries out a command by the call for it, among other things. -/
def Obeys (sv : Service) (c : WateringCommand) (w w' : World) : Prop :=
  ∃ (before after : List Move) (w₁ w₂ : World),
    (∀ m ∈ before, m.act? = none) ∧ World.run before w = some w₁ ∧
    w₁.next (.call (c.call sv.limits)) = some w₂ ∧
    (∀ m ∈ after, m.act? = none) ∧ World.run after w₂ = some w' ∧ w'.caller = .free ∧
    sv.handle c = ((w₁.outcome (c.call sv.limits)).mapError .line,
      { sv with system := w'.system })

/-- Nothing else happens. -/
theorem Obeys.at_once {c : WateringCommand} (hnext : w.next (.call (c.call sv.limits)) = some w')
    (hfree : w'.caller = .free)
    (hhandle : sv.handle c = ((w.outcome (c.call sv.limits)).mapError .line,
      { sv with system := w'.system })) : Obeys sv c w w' :=
  ⟨[], [], w, w', fun _ h => absurd h List.not_mem_nil, rfl, hnext,
    fun _ h => absurd h List.not_mem_nil, rfl, hfree, hhandle⟩

theorem next_free {c : Call} (hfree : w.caller = .free) : w.next (.call c) = w.call c := by
  rw [World.next, hfree]

/-- A move that finds the lines free. -/
theorem next_rebind (wanted : Each (Option Offset)) (hfree : w.caller = .free)
    (hlines : w.system.linesHeld = false) : w.next (.call (.rebind wanted)) =
      some { w with system := (w.system.rebind wanted).2 } :=
  (next_free hfree).trans (if_neg (by rw [hlines]; exact Bool.false_ne_true))

theorem performs_noting {A : Move → Prop} (hA : Move.Attends A) {entries : List Effect}
    (h : ∀ e ∈ entries, e.isDeed = false) : Performs A (Watering.noting entries) := by
  induction entries with
  | nil => exact ⟨fun hsteady hfree => by rw [Watering.noting_nil]; exact .rest hsteady hfree⟩
  | cons e rest ih =>
    rw [List.forall_mem_cons] at h
    have heq : Watering.noting (e :: rest) = fun s => (record s e).noting rest :=
      funext fun s => (s.noting_noting [e] rest).symm
    rw [heq]
    exact (performs_record hA h.1).comp (ih h.2)

/-- A message of the service does nothing. -/
theorem isDeed_message {level : Level} {text : String} {e : Effect}
    (h : e ∈ Service.message level text) : e.isDeed = false := by
  rw [Service.message, List.mem_cons, List.mem_singleton] at h
  obtain rfl | rfl := h <;> rfl

theorem isDeed_rangeWarning {what : String} {value : Int} {max : Nat} {e : Effect}
    (h : e ∈ Service.rangeWarning what value max) : e.isDeed = false := by
  unfold Service.rangeWarning at h
  split at h
  · cases h
  · exact isDeed_message h

theorem isDeed_moveFailure {role : Role} {line : Nat} {r : Except LineError Unit} {e : Effect}
    (h : e ∈ Service.moveFailure role line r) : e.isDeed = false := by
  cases r with
  | ok _ => cases h
  | error _ => exact isDeed_message h

/-- A stop is over when the worker has been joined. -/
theorem Reachable.obeys_stop (h : w.Reachable) (hfree : w.caller = .free)
    (hsv : sv.system = w.system) : ∃ w', Obeys sv .stop w w' := by
  have hhandle : sv.handle .stop = (.ok (), { sv with system := w.system.stop .shutdown }) := by
    rw [Service.handle, Service.onSystem, hsv]
  cases hjob : w.system.hasJob with
  | false =>
    have hstop := (h.steady.stop_declined hfree hjob .shutdown).2.1
    exact ⟨_, .at_once hstop hfree hhandle⟩
  | true =>
    obtain ⟨n, w', -, hrun, hfree', hs⟩ := h.steady.stop_returns hfree hjob .shutdown
    obtain ⟨w₂, hask, hrest⟩ := Option.bind_eq_some_iff.mp hrun
    refine ⟨w', [], _, w, w₂, fun _ h => absurd h List.not_mem_nil, rfl, hask, ?_, hrest, hfree',
      by rw [hhandle, hs]; rfl⟩
    intro m hm
    rw [List.mem_cons, List.mem_append, List.mem_singleton] at hm
    obtain rfl | hm | rfl := hm
    · rfl
    · rw [List.eq_of_mem_replicate hm]
      rfl
    · rfl

/-- A move is made when the worker has let go of the lines. -/
theorem Reachable.obeys_setLine (h : w.Reachable) (hfree : w.caller = .free)
    (hsv : sv.system = w.system) (role : Role) (line : Int) :
    ∃ w', Obeys sv (.setLine role line) w w' := by
  obtain ⟨before, w₁, hbefore, hrun₁, hsteady₁, hfree₁, hs₁⟩ :=
    (performs_noting attends_aside fun _ => isDeed_rangeWarning).does h.steady hfree
  obtain ⟨wait, w₂, hwait, hrun₂, hsteady₂, hfree₂, hs₂⟩ :=
    (performs_awaitLines attends_aside).does hsteady₁ hfree₁
  have hrun : World.run (before ++ wait) w = some w₂ := by
    rw [run_append, hrun₁]
    exact hrun₂
  have hlines : w₂.system.linesHeld = false := by
    rw [hs₂]
    exact hsteady₁.awaitLines
  -- The move finds the lines free, and is the one that the service asks for.
  have hmove : (sv.warned role line).move role (.ofNat (clamp sv.limits.maxPinOffset.toNat line)) =
      w₂.system.rebind ((Each.both none).set role
        (some (.ofNat (clamp sv.limits.maxPinOffset.toNat line)))) := by
    rw [hs₂, ← awaitLines_rebind hsteady₁.awaitLines, hs₁, ← hsv]
    rfl
  have hnext := next_rebind ((Each.both none).set role
    (some (.ofNat (clamp sv.limits.maxPinOffset.toNat line)))) hfree₂ hlines
  obtain ⟨after, w', hafter, hrun', -, hfree', hs'⟩ :=
    (performs_noting attends_aside fun _ => isDeed_moveFailure).does (hsteady₂.next hnext) hfree₂
  refine ⟨w', before ++ wait, after, w₂, _, List.forall_mem_append.mpr ⟨hbefore, hwait⟩, hrun,
    hnext, hafter, hrun', hfree', ?_⟩
  rw [Service.handle, Service.setLine_eq_noting sv role line rfl, hmove, hs']
  rfl

/-- **A command is carried out by the call for it.** -/
theorem Reachable.obeys (h : w.Reachable) (hfree : w.caller = .free) (hsv : sv.system = w.system)
    (c : WateringCommand) : ∃ w', Obeys sv c w w' := by
  cases c with
  | start flow =>
    refine ⟨_, .at_once (next_free hfree) hfree ?_⟩
    rw [Service.handle, Service.onSystem, hsv]
    rfl
  | enable role on =>
    refine ⟨_, .at_once (next_free hfree) hfree ?_⟩
    rw [Service.handle, Service.onSystem, hsv]
    rfl
  | stop => exact h.obeys_stop hfree hsv
  | setDuration i ms =>
    obtain ⟨before, w₁, hbefore, hrun, -, hfree₁, hs₁⟩ :=
      (performs_noting attends_aside fun _ => isDeed_rangeWarning).does h.steady hfree
    have hnext := next_free (c := (WateringCommand.setDuration i ms).call sv.limits) hfree₁
    obtain ⟨after, w', hafter, hrun', -, hfree', hs'⟩ := (performs_log attends_aside .info
      s!"Service: {i.label} set to {clamp sv.limits.maxDurationMs.toNat ms} ms").does
        ((h.run before hrun).steady.next hnext) hfree₁
    refine ⟨w', before, after, w₁, _, hbefore, hrun, hnext, hafter, hrun', hfree', ?_⟩
    rw [Service.handle, Service.setDuration_eq_noting, hs', hsv, ← hs₁]
    rfl
  | setLine role line => exact h.obeys_setLine hfree hsv role line

/-- **A service carries out a list of commands in order**, up to and including the first that
fails. -/
theorem Reachable.follows_handleAll (h : w.Reachable) (hfree : w.caller = .free)
    (hsv : sv.system = w.system) (cs : List WateringCommand) :
    ∃ moves r w', Follows sv.limits cs w moves r w' ∧ w'.caller = .free ∧
      sv.handleAll cs = (r.mapError .line, { sv with system := w'.system }) := by
  induction cs generalizing w sv with
  | nil =>
    refine ⟨[], .ok (), w, .done w, hfree, ?_⟩
    rw [Service.handleAll, ← hsv]
    rfl
  | cons c rest ih =>
    obtain ⟨w₁, before, after, v, v', hbefore, hrun, hnext, hafter, hrun', hfree₁, hhandle⟩ :=
      h.obeys hfree hsv c
    have hreach := ((h.run before hrun).move hnext).run after hrun'
    rw [Service.handleAll, hhandle]
    cases houtcome : v.outcome (c.call sv.limits) with
    | ok _ =>
      have hsv₁ : ({ sv with system := w₁.system } : Service).system = w₁.system := rfl
      obtain ⟨moves, r, w', hfollows, hfree', hall⟩ := ih hreach hfree₁ hsv₁
      exact ⟨_, r, w', .prepend hbefore hrun (.command hnext houtcome
        (.prepend hafter hrun' hfollows)), hfree', hall⟩
    | error e =>
      have hend : Follows sv.limits [] v' (after ++ []) (.ok ()) w₁ :=
        .prepend hafter hrun' (.done w₁)
      exact ⟨_, .error e, w₁, .prepend hbefore hrun (.failure hnext houtcome hend), hfree₁, rfl⟩

end World

/-! ## Lines -/

namespace WateringOptions

/-- A line that does not fail, carried out by moves from `w` to `w'`. -/
structure Completes (o : WateringOptions) (limits : Limits) (w : World) (moves : List Move)
    (w' : World) : Prop where
  /-- The caller has done what the commands say, each once and in their order, and no more. -/
  acts : moves.filterMap Move.act? = o.commands.map (·.call limits)
  asked : ∀ c, c ∈ o.commands ↔ o.Asks c
  once : o.commands.Nodup
  /-- A stop comes before all others, a start after them. -/
  ends : ∃ others, o.commands = ifSet o.stop .stop ++ others ++
      ifGiven o.start (fun flow => .start (if flow.isEmpty then none else some flow)) ∧
    ∀ c ∈ others, c ≠ .stop ∧ ∀ flow, c ≠ .start flow
  /-- A device that is both enabled and disabled is disabled. -/
  enabled : ∀ r, w'.system.enabled.get r =
    if o.disable.get r then false else if o.enable.get r then true else w.system.enabled.get r
  timing : ∀ i, w'.system.timing.get i =
    ((o.duration? i).map fun ms => .ofNat (clamp limits.maxDurationMs.toNat ms)).getD
      (w.system.timing.get i)
  lines : ∀ r, (w'.system.hardware.slot r).offset =
    ((o.line.get r).map fun line => .ofNat (clamp limits.maxPinOffset.toNat line)).getD
      (w.system.hardware.slot r).offset
  placed : (∃ r line, o.line.get r = some line) → w'.system.Placed

/-- A line that fails, carried out by moves from `w` to `w'`. -/
structure GivesUp (o : WateringOptions) (limits : Limits) (w : World) (moves : List Move)
    (w' : World) : Prop where
  /-- The caller has asked for the stop, if one is asked for; has moved the valve, if that is asked
  for and it is the move of the pump that failed; has tried the move that failed; and no more. -/
  acts : ∃ r line, o.line.get r = some line ∧
    moves.filterMap Move.act? =
      (o.beforeMove r ++ [WateringCommand.setLine r line]).map (·.call limits) ∧
    o.beforeMove r ++ [WateringCommand.setLine r line] <+: o.commands
  /-- Nothing is set, and no job is started. -/
  unsettled : w.Unsettled w'

variable {o : WateringOptions} {limits : Limits} {w w' : World} {moves : List Move} {r : Role}
  {line : Int} {e : LineError} {c : WateringCommand} {m : Move}

/-- The commands of a line but for a stop and a start. -/
def between (o : WateringOptions) : List WateringCommand :=
  ifGiven o.line.valve (.setLine .valve) ++ ifGiven o.line.pump (.setLine .pump) ++
    ifSet o.enable.valve (.enable .valve true) ++ ifSet o.disable.valve (.enable .valve false) ++
    ifSet o.enable.pump (.enable .pump true) ++ ifSet o.disable.pump (.enable .pump false) ++
    ifGiven o.activation (.setDuration .activation) ++
    ifGiven o.deactivation (.setDuration .deactivation) ++
    ifGiven o.separation (.setDuration .separation)

theorem ends_commands (o : WateringOptions) :
    ∃ others, o.commands = ifSet o.stop .stop ++ others ++
        ifGiven o.start (fun flow => .start (if flow.isEmpty then none else some flow)) ∧
      ∀ c ∈ others, c ≠ .stop ∧ ∀ flow, c ≠ .start flow := by
  refine ⟨o.between, by simp only [commands, between, List.append_assoc], fun c hc => ?_⟩
  cases c with
  | start flow => simp [between, mem_ifSet, mem_ifGiven] at hc
  | stop => simp [between, mem_ifSet, mem_ifGiven] at hc
  | _ => exact ⟨by rintro ⟨⟩, by rintro _ ⟨⟩⟩

theorem completes (hw : w.Reachable) (h : World.Follows limits o.commands w moves (.ok ()) w') :
    o.Completes limits w moves w' := by
  have hsettled : w'.system.settings = o.settings limits w.system.settings := h.settled rfl hw
  refine {
    acts := h.acts rfl
    asked := fun _ => mem_commands
    once := nodup_of_ordered o.ranked_commands.ordered
    ends := o.ends_commands
    enabled := fun r => ?_
    timing := fun i => ?_
    lines := fun r => ?_
    placed := ?_ }
  · have henabled := o.enabled_settings limits w.system.settings r
    rw [← hsettled] at henabled
    exact henabled
  · have htiming := o.timing_settings limits w.system.settings i
    rw [← hsettled] at htiming
    exact htiming
  · have hlines := o.lines_settings limits w.system.settings r
    rw [← hsettled] at hlines
    simp only [Watering.settings, Each.get_map] at hlines
    exact hlines
  · rintro ⟨r, line, hline⟩
    exact h.placed rfl hw (.inr ⟨r, line, mem_commands.mpr hline⟩)

/-- All that comes before a move is a stop or a move. -/
theorem eq_of_mem_beforeMove (hc : c ∈ o.beforeMove r) :
    c = .stop ∨ ∃ q line, c = .setLine q line := by
  cases r with
  | valve => exact .inl (mem_ifSet.mp hc).2
  | pump =>
    obtain hstop | hmove := List.mem_append.mp hc
    · exact .inl (mem_ifSet.mp hstop).2
    · obtain ⟨line, -, rfl⟩ := mem_ifGiven.mp hmove
      exact .inr ⟨.valve, line, rfl⟩

/-- A caller who has only stopped and moved has done nothing else. -/
theorem isQuiet_of_acts
    (hacts : moves.filterMap Move.act? =
      (o.beforeMove r ++ [WateringCommand.setLine r line]).map (·.call limits))
    (hm : m ∈ moves) : World.isQuiet m = true := by
  unfold World.isQuiet
  cases hact : m.act? with
  | none => rfl
  | some a =>
    have hmem : a ∈ moves.filterMap Move.act? := List.mem_filterMap.mpr ⟨m, hm, hact⟩
    rw [hacts, List.mem_map] at hmem
    obtain ⟨c, hc, rfl⟩ := hmem
    rw [List.mem_append, List.mem_singleton] at hc
    obtain rfl | ⟨q, n, rfl⟩ : c = .stop ∨ ∃ q n, c = .setLine q n :=
      hc.elim eq_of_mem_beforeMove fun h => .inr ⟨r, line, h⟩
    · rfl
    · rfl

theorem givesUp (hw : w.Reachable) (h : World.Follows limits o.commands w moves (.error e) w') :
    o.GivesUp limits w moves w' := by
  obtain ⟨before, r, line, after, hcs, hacts⟩ := h.failed rfl
  obtain ⟨hline, rfl⟩ := eq_beforeMove hcs
  refine ⟨⟨r, line, hline, hacts, after, ?_⟩,
    hw.steady.quiet_run moves (fun m hm => isQuiet_of_acts hacts hm) h.run⟩
  rw [hcs, List.append_assoc]
  rfl

end WateringOptions

namespace World

/-- What a service makes of a line with watering options. -/
structure CarriesOut (sv : Service) (o : WateringOptions) (w : World) : Prop where
  /-- The commands are carried out in order, up to and including the first that fails, and nothing
  of the service changes but its system. -/
  follows : ∃ moves r w', Follows sv.limits o.commands w moves r w' ∧ w'.caller = .free ∧
    sv.execute (.watering o) =
      .done ((r.mapError .line).map fun _ => .done, { sv with system := w'.system })
  ok : ∀ moves w', Follows sv.limits o.commands w moves (.ok ()) w' →
    o.Completes sv.limits w moves w'
  error : ∀ moves e w', Follows sv.limits o.commands w moves (.error e) w' →
    o.GivesUp sv.limits w moves w'

variable {w : World} {sv : Service}

/-- **A line that fails has set nothing and started nothing; one that does not has done all that it
asks for.** -/
theorem carries_out (h : w.Reachable) (hfree : w.caller = .free) (hsv : sv.system = w.system)
    (o : WateringOptions) : CarriesOut sv o w where
  follows := by
    obtain ⟨moves, r, w', hfollows, hfree', hall⟩ := h.follows_handleAll hfree hsv o.commands
    refine ⟨moves, r, w', hfollows, hfree', ?_⟩
    rw [Service.execute, hall]
    rfl
  ok := fun _ _ => WateringOptions.completes h
  error := fun _ _ _ => WateringOptions.givesUp h

/-- A line that stops the job, puts both devices on one line, and sets a duration. -/
def crossed : WateringOptions :=
  { stop := true, line := ⟨some 5, some 5⟩, activation := some 10 }

/-- The worker is about to start the pump. After the stop the valve is moved, and the move of the
pump to the same line fails. -/
theorem crossed_carried_out : ∃ w : World,
    after ⟨⟨17, .activeHigh⟩, ⟨27, .activeLow⟩⟩ (.call (.start none) :: List.replicate 9 .work) =
      some w ∧
    (Service.handleAll ⟨w.system, ⟨65535, 27⟩, none⟩ crossed.commands).1 =
      .error (.line (.shared 5)) ∧
    CarriesOut ⟨w.system, ⟨65535, 27⟩, none⟩ crossed w := by
  obtain ⟨w, hw, hfacts⟩ := (Option.any_eq_true
    (fun w : World => decide (w.caller = .free) && decide
      ((Service.handleAll ⟨w.system, ⟨65535, 27⟩, none⟩ crossed.commands).1 =
        .error (.line (.shared 5)))) _).mp
    (show Option.any _ (after ⟨⟨17, .activeHigh⟩, ⟨27, .activeLow⟩⟩
      (.call (.start none) :: List.replicate 9 .work)) = true by decide +kernel)
  rw [Bool.and_eq_true, decide_eq_true_iff, decide_eq_true_iff] at hfacts
  exact ⟨w, hw, hfacts.2, carries_out (reachable_of_after hw) hfacts.1 rfl crossed⟩

end World

end Irrigation
