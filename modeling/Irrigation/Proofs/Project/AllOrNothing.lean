import Irrigation.Proofs.Hardware.Rebinding
import Irrigation.Proofs.Project.Codec
import Irrigation.Proofs.Project.Loading
import Irrigation.Proofs.World.Calls

/-!
# All or nothing

A load looks at the whole section before it changes anything: at its form, at its mode, and at the
pins of the devices that it enables (`Section.Sound`). Then it moves both devices at once, and that
is the last thing that can fail. `Watering.loadFrom_cases` tells the three ways that a load can go,
and `World.load_all_or_nothing` what follows for flags, durations and bindings, whatever the worker
of a running job is doing.

The messages on the way get into the journal before the move begins. A move does not read the
journal (`Watering.Agrees.rebind`), so that the result of a load can be told by the move from the
state in which the load began.
-/

namespace Irrigation

open Project

/-! ## What a section asks for -/

namespace Project

/-- The line that a flow asks for: the pin of the role's first entry, if the entry enables it. -/
def Flow.line? (f : Flow) (r : Role) : Option Offset :=
  (f.device? r).bind fun e => if e.enabled then some e.pin.toUInt32 else none

/-- The lines that a flow asks for. -/
def Flow.lines (f : Flow) : Each (Option Offset) := ⟨f.line? .valve, f.line? .pump⟩

/-- What a flow asks of a role, if its pin is a number that a line can have. -/
def Flow.wish (f : Flow) (r : Role) : Wish := ⟨f.line? r, (f.device? r).map DeviceEntry.enabled⟩

/-- The first entry of a role, if it enables the role, has a pin that can be a line's number. -/
def Flow.Fits (f : Flow) (r : Role) : Prop :=
  ∀ e, f.device? r = some e → e.enabled = true → e.pin.toNat < UInt32.size

/-- A section that asks for nothing impossible: its mode is known, and its pins fit. -/
structure Section.Sound (a : Section) : Prop where
  mode : a.mode = cycledFlow
  pins : ∀ role, a.flow.Fits role

variable {f : Flow} {r : Role} {a : Section}

theorem Flow.wish?_eq_ok (h : f.Fits r) : f.wish? r = .ok (f.wish r) := by
  unfold Flow.wish? Flow.wish Flow.line?
  cases hd : f.device? r with
  | none => rfl
  | some e =>
    simp only [DeviceEntry.offset?, Option.bind_some]
    cases hon : e.enabled with
    | false => simp [Except.map, hon]
    | true => simp [h e hd hon, Except.map, hon]

theorem Flow.wish?_eq_error (h : ¬ f.Fits r) : ∃ e, f.wish? r = .error e := by
  simp only [Flow.Fits, Classical.not_forall] at h
  obtain ⟨e, hd, hon, hwide⟩ := h
  refine ⟨.malformed s!"pinID {e.pin} out of range", ?_⟩
  simp only [Flow.wish?, hd, DeviceEntry.offset?, hon, hwide, Bool.not_true, if_false,
    Bool.false_eq_true, Except.map]

/-- Unsound in a known mode: the first wish that cannot be read is the one that is refused. -/
theorem Section.refuses (hmode : a.mode = cycledFlow) (h : ¬ a.Sound) :
    ∃ e, a.flow.wish? .valve = .error e ∨
      (∃ valve, a.flow.wish? .valve = .ok valve) ∧ a.flow.wish? .pump = .error e := by
  by_cases hv : a.flow.Fits .valve
  · by_cases hp : a.flow.Fits .pump
    · exact absurd ⟨hmode, fun role => by cases role; exacts [hv, hp]⟩ h
    · obtain ⟨e, he⟩ := Flow.wish?_eq_error hp
      exact ⟨e, .inr ⟨⟨_, Flow.wish?_eq_ok hv⟩, he⟩⟩
  · obtain ⟨e, he⟩ := Flow.wish?_eq_error hv
    exact ⟨e, .inl he⟩

theorem Flow.get_lines (f : Flow) (r : Role) : f.lines.get r = f.line? r := by cases r <;> rfl

end Project

namespace Watering

variable {s s' : Watering} {d : Document} {v : Json.Value} {a : Section}

/-! ## What was journaled does not matter -/

/-- Two systems that differ in their journals at most. -/
def Agrees (s s' : Watering) : Prop := ∃ journal, s' = World.rejournal s journal

theorem OnlySays.agrees (h : s.OnlySays s') : s.Agrees s' := by
  obtain ⟨entries, rfl⟩ := h
  exact ⟨_, rfl⟩

/-- A move gives the same result, and leaves the same but for the journal. -/
theorem Agrees.rebind (h : s.Agrees s') (hsafe : s.rig.faults.deadlyLine = none)
    (wanted : Each (Option Offset)) :
    (s'.rebind wanted).1 = (s.rebind wanted).1 ∧
      (s.rebind wanted).2.Agrees (s'.rebind wanted).2 := by
  obtain ⟨journal, rfl⟩ := h
  let bare := World.rejournal s []
  have hs : s = bare.prefixed s.rig.journal := World.prefixed_rejournal s
  have hs' : World.rejournal s journal = bare.prefixed journal :=
    congrArg (World.rejournal s) (List.append_nil journal).symm
  have hmove : ∀ entries, (bare.prefixed entries).rebind wanted =
      (bare.rebind wanted).map id (prefixed entries) :=
    fun entries => rebind_prefixed entries (s := bare) hsafe wanted
  rw [hs', hmove journal]
  rw [hs, hmove s.rig.journal]
  exact ⟨rfl, _, rfl⟩

/-! ## How a load goes -/

/-- The load of a section comes down to one move, which leaves `s₁`: it fails as the move fails, and
settles flags and durations if the move succeeds. -/
structure LoadsByMove (s : Watering) (d : Document) (a : Section) (s₁ : Watering) : Prop where
  agrees : (s.rebind a.flow.lines).2.Agrees s₁
  failed : ∀ e, (s.rebind a.flow.lines).1 = .error e → s.loadFrom d = (.error (.line e), s₁)
  done : (s.rebind a.flow.lines).1 = .ok () → ∃ s₂, OnlySays
    (s₁.settled (a.flow.wish .valve) (a.flow.wish .pump) a.flow.timing) s₂ ∧
      s.loadFrom d = (.ok (), s₂)

theorem loadsByMove (hsafe : s.rig.faults.deadlyLine = none) (hd : d.section? sectionKey = some v)
    (ha : Section.ofValue v = .ok a) (hsound : a.Sound) : ∃ s₁, s.LoadsByMove d a s₁ := by
  obtain ⟨s₀, hsaid₀, hload⟩ := loadFrom_eq hd ha hsound.mode s
  obtain ⟨s₁, s₂, result, hsaid₁, hmove, hfailed, hdone⟩ := applyFlow_eq_rebind
    (Flow.wish?_eq_ok (hsound.pins .valve)) (Flow.wish?_eq_ok (hsound.pins .pump)) s₀
  -- The move begins in `s₁`, after all that was said on the way; it goes as from `s`.
  obtain ⟨hresult, hagrees⟩ := (hsaid₀.trans hsaid₁).agrees.rebind hsafe a.flow.lines
  rw [show s₁.rebind a.flow.lines = (result, s₂) from hmove] at hresult hagrees
  rw [← hload] at hfailed hdone
  exact ⟨s₂, hagrees, fun e he => hfailed e (hresult.trans he),
    fun hok => hdone (hresult.trans hok)⟩

/-- The three ways of a load: there is nothing to load, what is there is refused at once, or it
all comes down to one move. -/
theorem loadFrom_cases (d : Document) (hsafe : s.rig.faults.deadlyLine = none) :
    (d.section? sectionKey = none ∧ (s.loadFrom d).1 = .ok () ∧ s.OnlySays (s.loadFrom d).2) ∨
    (∃ v, d.section? sectionKey = some v ∧ (∀ a, Section.ofValue v = .ok a → ¬ a.Sound) ∧
      (∃ e, (s.loadFrom d).1 = .error (.project e)) ∧ s.OnlySays (s.loadFrom d).2) ∨
    (∃ v a s₁, d.section? sectionKey = some v ∧ Section.ofValue v = .ok a ∧ a.Sound ∧
      s.LoadsByMove d a s₁) := by
  cases hd : d.section? sectionKey with
  | none =>
    refine .inl ⟨rfl, ?_⟩
    rw [loadFrom, hd]
    exact ⟨rfl, .log ..⟩
  | some v =>
    refine .inr ?_
    cases ha : Section.ofValue v with
    | error e =>
      refine .inl ⟨v, rfl, fun a h => (by rw [ha] at h; cases h), ?_⟩
      simp only [loadFrom, hd, ha]
      exact ⟨⟨_, rfl⟩, .refl s⟩
    | ok a =>
      by_cases hsound : a.Sound
      · obtain ⟨s₁, hmove⟩ := loadsByMove hsafe hd ha hsound
        exact .inr ⟨v, a, s₁, rfl, ha, hsound, hmove⟩
      · refine .inl ⟨v, rfl, fun a' h => (by rwa [← Except.ok.inj (ha.symm.trans h)]), ?_⟩
        by_cases hmode : a.mode = cycledFlow
        · obtain ⟨s₀, hsaid₀, hload⟩ := loadFrom_eq hd ha hmode s
          obtain ⟨e, he⟩ := Section.refuses hmode hsound
          obtain ⟨s₁, hsaid₁, happly⟩ := applyFlow_refused s₀ he
          rw [hload, happly]
          exact ⟨⟨e, rfl⟩, hsaid₀.trans hsaid₁⟩
        · simp only [loadFrom, hd, ha, ne_eq, hmode, not_false_eq_true, if_true]
          exact ⟨⟨_, rfl⟩, .refl s⟩

/-! ## What a load leaves -/

/-- `s'` is what a section makes of `s`. -/
structure Applied (s : Watering) (a : Section) (s' : Watering) : Prop where
  /-- Each role that has an entry has the flag of its first entry. -/
  enabled : ∀ role e, a.flow.device? role = some e → s'.enabled.get role = e.enabled
  /-- A role without an entry keeps its flag. -/
  missing : ∀ role, a.flow.device? role = none → s'.enabled.get role = s.enabled.get role
  /-- The durations are the stored ones. -/
  timing : s'.timing = ⟨a.flow.activation, a.flow.deactivation, a.flow.separation⟩
  /-- Each role that is enabled is bound on its pin. -/
  bound : ∀ role e, a.flow.device? role = some e → e.enabled = true →
    ∃ o, (s'.hardware.slot role).output = some o ∧ o.offset.toNat = e.pin.toNat ∧
      (s'.hardware.slot role).offset.toNat = e.pin.toNat
  /-- A role that is disabled or has no entry keeps its stored offset. -/
  stays : ∀ role, (∀ e, a.flow.device? role = some e → e.enabled = false) →
    (s'.hardware.slot role).offset = (s.hardware.slot role).offset
  /-- But for flags, durations and what was said, the one move is all that was done. -/
  rest : { (s.rebind a.flow.lines).2 with enabled := s'.enabled, timing := s'.timing }.Agrees s'

/-- A load does all that the section says, or nothing. -/
structure LoadsWhole (s : Watering) (d : Document) : Prop where
  /-- Without a section all is well, and nothing is done. -/
  absent : d.section? sectionKey = none →
    (s.loadFrom d).1 = .ok () ∧ s.OnlySays (s.loadFrom d).2
  /-- When a section is accepted. -/
  accepted : ∀ v, d.section? sectionKey = some v →
    ((s.loadFrom d).1 = .ok () ↔
      ∃ a, Section.ofValue v = .ok a ∧ a.Sound ∧ (s.rebind a.flow.lines).1 = .ok ())
  /-- An accepted section is applied. -/
  applied : ∀ v a, d.section? sectionKey = some v → Section.ofValue v = .ok a →
    (s.loadFrom d).1 = .ok () → s.Applied a (s.loadFrom d).2
  /-- A section that is refused changes no flag and no duration. -/
  refused : ∀ e, (s.loadFrom d).1 = .error e →
    (s.loadFrom d).2.enabled = s.enabled ∧ (s.loadFrom d).2.timing = s.timing
  /-- Nor does it change anything else, unless it is the move that failed: then the lines are as
  the failed move leaves them. -/
  untouched : ∀ e, (s.loadFrom d).1 = .error e → s.OnlySays (s.loadFrom d).2 ∨
    ∃ v a e', d.section? sectionKey = some v ∧ Section.ofValue v = .ok a ∧ a.Sound ∧
      e = .line e' ∧ (s.rebind a.flow.lines).1 = .error e' ∧
      (s.rebind a.flow.lines).2.Agrees (s.loadFrom d).2

end Watering

namespace World

open Watering

variable {w : World} {a : Section} {wanted : Each (Option Offset)}

/-- What is so when the worker has let go of the lines. -/
theorem Reachable.awaitLines (h : w.Reachable) : ∃ w' : World, w'.Reachable ∧
    w'.system = w.system.awaitLines ∧ Keeps w.system w'.system := by
  obtain ⟨k, w', hrun, -, hs⟩ := run_awaitWithin 8 w
  refine ⟨w', h.run _ hrun, hs, h.steady.keeps _ (fun m hm => ?_) hrun⟩
  rw [List.eq_of_mem_replicate hm]
  rfl

/-- A move of lines changes no flag and no duration. -/
theorem Reachable.rebind_keeps (h : w.Reachable) (wanted : Each (Option Offset)) :
    (w.system.rebind wanted).2.enabled = w.system.enabled ∧
      (w.system.rebind wanted).2.timing = w.system.timing := by
  obtain ⟨w', -, hs, hkeeps⟩ := h.awaitLines
  rw [hs] at hkeeps
  exact ⟨hkeeps.enabled, hkeeps.timing⟩

/-- After a successful move each role holds the line that is wanted for it, or its own. -/
theorem Reachable.rebind_holds (h : w.Reachable) (hok : (w.system.rebind wanted).1 = .ok ())
    (role : Role) : ∃ o, ((w.system.rebind wanted).2.hardware.slot role).output = some o ∧
      o.offset = (wanted.get role).getD (w.system.hardware.slot role).offset ∧
      ((w.system.rebind wanted).2.hardware.slot role).offset =
        (wanted.get role).getD (w.system.hardware.slot role).offset := by
  obtain ⟨w', hreach, hs, hkeeps⟩ := h.awaitLines
  -- Where the move finds the lines free again the worker is further on, but no offset has changed.
  obtain ⟨others, hhosts⟩ := hreach.orderly.hosts (c := w'.system.hardware) (.head _)
  have hoffset : (w'.system.hardware.slot role).offset = (w.system.hardware.slot role).offset :=
    congrArg (fun b => b.2.1) (hkeeps.bindings role)
  rw [hs] at hhosts hoffset
  have hheld := Controller.holds_targets hhosts hok role
  rw [← hoffset]
  cases role <;> exact hheld

/-- **A section that is accepted is applied.** -/
theorem Reachable.applied (h : w.Reachable) {s₁ s₂ : Watering} (hsound : a.Sound)
    (hok : (w.system.rebind a.flow.lines).1 = .ok ())
    (hagrees : (w.system.rebind a.flow.lines).2.Agrees s₁)
    (hsaid : (s₁.settled (a.flow.wish .valve) (a.flow.wish .pump) a.flow.timing).OnlySays s₂) :
    w.system.Applied a s₂ := by
  obtain ⟨henabled, -⟩ := h.rebind_keeps a.flow.lines
  have hholds := fun role => h.rebind_holds hok role
  obtain ⟨entries, rfl⟩ := hsaid
  obtain ⟨journal, rfl⟩ := hagrees
  have hflag : ∀ role, (((World.rejournal (w.system.rebind a.flow.lines).2 journal).settled
      (a.flow.wish .valve) (a.flow.wish .pump) a.flow.timing).enabled).get role =
        ((a.flow.device? role).map DeviceEntry.enabled).getD (w.system.enabled.get role) := by
    intro role
    rw [← henabled]
    cases role <;> rfl
  refine ⟨fun role e he => ?_, fun role hnone => ?_, rfl, fun role e he hon => ?_,
    fun role hoff => ?_, ⟨_, rfl⟩⟩
  · exact (hflag role).trans (by rw [he]; rfl)
  · exact (hflag role).trans (by rw [hnone]; rfl)
  · obtain ⟨o, ho, hline, hoffset⟩ := hholds role
    have hfits := hsound.pins role e he hon
    have hwanted : (a.flow.lines.get role) = some e.pin.toUInt32 := by
      rw [Flow.get_lines, Flow.line?, he, Option.bind_some, if_pos hon]
    have hpin : e.pin.toUInt32.toNat = e.pin.toNat := by
      rw [UInt64.toNat_toUInt32, Nat.mod_eq_of_lt hfits]
    rw [hwanted, Option.getD_some] at hline hoffset
    exact ⟨o, ho, by rw [hline, hpin], (congrArg UInt32.toNat hoffset).trans hpin⟩
  · obtain ⟨o, -, -, hoffset⟩ := hholds role
    have hwanted : a.flow.lines.get role = none := by
      rw [Flow.get_lines, Flow.line?]
      cases he : a.flow.device? role with
      | none => rfl
      | some e => rw [Option.bind_some, hoff e he, if_neg Bool.false_ne_true]
    rw [hwanted, Option.getD_none] at hoffset
    exact hoffset

/-! ## The three ways put together -/

theorem loadsWhole_of_absent {s : Watering} {d : Document} (hd : d.section? sectionKey = none)
    (hok : (s.loadFrom d).1 = .ok ()) (hsaid : s.OnlySays (s.loadFrom d).2) : s.LoadsWhole d where
  absent := fun _ => ⟨hok, hsaid⟩
  accepted := fun v hv => by rw [hd] at hv; cases hv
  applied := fun v a hv => by rw [hd] at hv; cases hv
  refused := fun e he => by rw [hok] at he; cases he
  untouched := fun e he => by rw [hok] at he; cases he

theorem loadsWhole_of_unsound {s : Watering} {d : Document} {v : Json.Value} {e : ProjectError}
    (hd : d.section? sectionKey = some v) (hunsound : ∀ a, Section.ofValue v = .ok a → ¬ a.Sound)
    (herr : (s.loadFrom d).1 = .error (.project e)) (hsaid : s.OnlySays (s.loadFrom d).2) :
    s.LoadsWhole d where
  absent := fun hnone => by rw [hd] at hnone; cases hnone
  accepted := by
    intro v' hv'
    obtain rfl := Option.some.inj (hd.symm.trans hv')
    rw [herr]
    refine iff_of_false (fun hok => by cases hok) ?_
    rintro ⟨a, ha, hsound, -⟩
    exact hunsound a ha hsound
  applied := fun v' a _ _ hok => by rw [herr] at hok; cases hok
  refused := by
    intro _ _
    obtain ⟨_, hs⟩ := hsaid
    rw [hs]
    exact ⟨rfl, rfl⟩
  untouched := fun _ _ => .inl hsaid

/-- A sound section is applied, or the move fails. -/
theorem Reachable.loadsWhole_of_sound (h : w.Reachable) {d : Document} {v : Json.Value}
    {s₁ : Watering} (hd : d.section? sectionKey = some v) (ha : Section.ofValue v = .ok a)
    (hsound : a.Sound) (hload : w.system.LoadsByMove d a s₁) : w.system.LoadsWhole d := by
  have hpresent : d.section? sectionKey ≠ none := by rw [hd]; rintro ⟨⟩
  have hsection : ∀ v' a', d.section? sectionKey = some v' → Section.ofValue v' = .ok a' →
      a' = a := by
    intro v' a' hv' ha'
    obtain rfl := Option.some.inj (hd.symm.trans hv')
    exact Except.ok.inj (ha'.symm.trans ha)
  cases hmove : (w.system.rebind a.flow.lines).1 with
  | error e =>
    have hfailed := hload.failed e hmove
    refine ⟨fun hnone => absurd hnone hpresent, fun v' hv' => ?_, fun _ _ _ _ hok => ?_,
      fun _ _ => ?_, fun e' he' => .inr ⟨v, a, e, hd, ha, hsound, ?_, hmove, ?_⟩⟩
    · rw [hfailed]
      refine iff_of_false (fun hok => by cases hok) ?_
      rintro ⟨a', ha', -, hok⟩
      rw [hsection v' a' hv' ha', hmove] at hok
      cases hok
    · rw [hfailed] at hok
      cases hok
    · obtain ⟨_, hs₁⟩ := hload.agrees
      rw [hfailed, hs₁]
      exact h.rebind_keeps a.flow.lines
    · rw [hfailed] at he'
      exact (Except.error.inj he').symm
    · rw [hfailed]
      exact hload.agrees
  | ok _ =>
    obtain ⟨s₂, hsaid, hdone⟩ := hload.done hmove
    refine ⟨fun hnone => absurd hnone hpresent, fun v' hv' => ?_, fun v' a' hv' ha' _ => ?_,
      fun _ he => ?_, fun _ he => ?_⟩
    · obtain rfl := Option.some.inj (hd.symm.trans hv')
      rw [hdone]
      exact iff_of_true rfl ⟨a, ha, hsound, hmove⟩
    · rw [hsection v' a' hv' ha', hdone]
      exact h.applied hsound hmove hload.agrees hsaid
    · rw [hdone] at he
      cases he
    · rw [hdone] at he
      cases he

/-- **Loading is all or nothing**, for any document and in any reachable world. -/
theorem load_all_or_nothing (h : w.Reachable) (d : Document) : w.system.LoadsWhole d := by
  have hsafe : w.system.rig.faults.deadlyLine = none := by rw [h.steady.faults]
  rcases loadFrom_cases d hsafe with ⟨hd, hok, hsaid⟩ | ⟨v, hd, hunsound, ⟨e, herr⟩, hsaid⟩ |
    ⟨v, a, s₁, hd, ha, hsound, hload⟩
  · exact loadsWhole_of_absent hd hok hsaid
  · exact loadsWhole_of_unsound hd hunsound herr hsaid
  · exact h.loadsWhole_of_sound hd ha hsound hload

/-! ### A section that trades the lines -/

/-- The pump comes first and is to have the valve's line, the valve is to have the pump's, and a
second entry of the pump is out of range. -/
def tradingSection : Section :=
  ⟨cycledFlow, 1000, 2000, 100,
    [⟨"waterPump", 17, .activeLow, true⟩, ⟨"waterValve", 27, .activeHigh, true⟩,
      ⟨"waterPump", 4294967296, .activeLow, true⟩]⟩

/-- A project with that section. -/
def tradingDocument : Document :=
  (Document.new "plot").setSection sectionKey tradingSection.value.sorted

theorem section?_tradingDocument :
    tradingDocument.section? sectionKey = some tradingSection.value.sorted := by
  change Json.Members.find? ((Document.new "plot").root.insert sectionKey _) sectionKey = _
  rw [Json.Members.find?_insert, if_pos rfl]

theorem sound_tradingSection : tradingSection.Sound where
  mode := rfl
  pins := by
    intro role e he _
    cases role <;> obtain rfl := Option.some.inj he <;> decide

/-- The lines are traded while the worker is about to start the pump. -/
theorem lines_traded_while_watering : ∃ w : World,
    after ⟨⟨17, .activeHigh⟩, ⟨27, .activeLow⟩⟩ (.call (.start none) :: List.replicate 9 .work) =
      some w ∧
    w.system.linesHeld = true ∧ (w.system.loadFrom tradingDocument).1 = .ok () ∧
    w.system.Applied tradingSection (w.system.loadFrom tradingDocument).2 := by
  obtain ⟨w, hw, hfacts⟩ := (Option.any_eq_true
    (fun w : World => w.system.linesHeld &&
      (w.system.rebind tradingSection.flow.lines).1.toBool) _).mp
    (show Option.any _ (after ⟨⟨17, .activeHigh⟩, ⟨27, .activeLow⟩⟩
      (.call (.start none) :: List.replicate 9 .work)) = true by rfl)
  rw [Bool.and_eq_true] at hfacts
  have hmove : (w.system.rebind tradingSection.flow.lines).1 = .ok () := by
    cases hq : (w.system.rebind tradingSection.flow.lines).1 with
    | error e => rw [hq] at hfacts; cases hfacts.2
    | ok _ => rfl
  have hwhole := load_all_or_nothing (reachable_of_after hw) tradingDocument
  have hok := (hwhole.accepted _ section?_tradingDocument).mpr
    ⟨tradingSection, Section.ofValue_sorted tradingSection, sound_tradingSection, hmove⟩
  exact ⟨w, hw, hfacts.1, hok,
    hwhole.applied _ _ section?_tradingDocument (Section.ofValue_sorted tradingSection) hok⟩

end World

end Irrigation
