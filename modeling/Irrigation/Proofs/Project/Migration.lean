import Irrigation.Proofs.Json.Records
import Irrigation.Proofs.Project.AllOrNothing
import Irrigation.Proofs.Project.Fixing

/-!
# Legacy projects

A legacy flow has its devices as four values of its own. It is converted on its way in, and what is
loaded then is what the legacy values said (`Watering.adoptLegacy`): the flags and the durations,
and for each device that is enabled the line of its pin. The pin of a disabled device has no part
in it, and may be anything.
-/

namespace Irrigation

open Json Project

namespace Project

/-- What a legacy flow says. The pin of a disabled device means nothing. -/
structure LegacyFlow where
  activation : UInt64
  deactivation : UInt64
  separation : UInt64
  enabled : Each Bool
  pins : Each UInt64

/-- The members of a section and of its flow are those of a legacy project, and say this. There may
be other members, and the pin of a disabled device may be anything. -/
structure LegacyFlow.Says (l : LegacyFlow) (members flow : Members) : Prop where
  mode : members.find? "mode" = some (.text cycledFlow)
  stored : members.find? flowKey = some (.object flow)
  legacy : flow.contains devicesKey = false
  activation : (flow.find? "activationTime").bind Value.natural? = some l.activation
  deactivation : (flow.find? "deactivationTime").bind Value.natural? = some l.deactivation
  separation : (flow.find? "deactivationSepTime").bind Value.natural? = some l.separation
  enabled : ∀ r, flow.find? (legacyKeys r).enabled = some (.bool (l.enabled.get r))
  pin : ∀ r, l.enabled.get r = true →
    (flow.find? (legacyKeys r).pin).bind Value.natural? = some (l.pins.get r)

/-- A member that is an unsigned integer. -/
theorem find?_ofNatural {ms : Members} {name : String} {n : UInt64}
    (h : (ms.find? name).bind Value.natural? = some n) :
    ms.find? name = some (.ofNatural n) := by
  obtain ⟨v, hv, hn⟩ := Option.bind_eq_some_iff.mp h
  cases v with
  | number x =>
    cases x with
    | whole i =>
      simp only [Value.natural?, Number.natural?] at hn
      split at hn
      · next hi =>
        obtain rfl := Option.some.inj hn
        have hlt : i.toNat < UInt64.size := by omega
        rw [hv, Value.ofNatural, Number.ofNatural, UInt64.toNat_ofNat_of_lt' hlt,
          Int.toNat_of_nonneg hi.1]
      · cases hn
    | real x => cases hn
  | _ => cases hn

namespace LegacyFlow

variable {l : LegacyFlow} {members flow : Members}

/-! ## What the conversion writes -/

/-- The entry of a device. -/
def entry (l : LegacyFlow) (r : Role) : DeviceEntry where
  name := r.projectName
  pin := if l.enabled.get r then l.pins.get r else 0
  polarity := .activeLow
  enabled := l.enabled.get r

/-- The flow in the present layout. -/
def present (l : LegacyFlow) : Flow :=
  ⟨l.activation, l.deactivation, l.separation, Role.all.map l.entry⟩

/-- The members of a flow after the conversion. -/
def converted (l : LegacyFlow) (flow : Members) : Members :=
  (allLegacyKeys.foldl Members.erase flow).insert devicesKey
    (.array (l.present.devices.map fun e => e.value.sorted))

theorem Says.legacyDevice_eq (h : l.Says members flow) (r : Role) :
    legacyDevice flow r = .ok (l.entry r).value.sorted := by
  have hentry : (l.entry r).value.sorted = .object (Members.ofList
      [("name", .text r.projectName),
        ("pinID", .ofNatural (if l.enabled.get r then l.pins.get r else 0)),
        ("activationState", Polarity.activeLow.value), ("enabled", .bool (l.enabled.get r))]) := rfl
  have hflag : (flow.find? (legacyKeys r).enabled).bind Value.bool? = some (l.enabled.get r) := by
    rw [h.enabled r]
    rfl
  simp only [legacyDevice, hflag, hentry]
  cases hon : l.enabled.get r with
  | false => rfl
  | true =>
    simp only [h.pin r hon, if_true]
    rfl

/-- A flow with the flag of the valve, and without a list of devices, is a legacy one. -/
theorem Says.isLegacy_eq (h : l.Says members flow) : isLegacy flow = true := by
  have hflag : flow.contains (legacyKeys .valve).enabled = true := by
    rw [Members.contains, h.enabled .valve]
    rfl
  rw [isLegacy, h.legacy, Bool.not_false, Bool.true_and, List.any_eq_true]
  exact ⟨_, List.mem_cons_self, hflag⟩

theorem Says.upgradeFlow_eq (h : l.Says members flow) :
    upgradeFlow flow = .ok (some (l.converted flow)) := by
  unfold upgradeFlow
  rw [h.isLegacy_eq, h.legacyDevice_eq .valve, h.legacyDevice_eq .pump]
  rfl

theorem Says.upgradeRoot_eq (h : l.Says members flow) {root : Members}
    (hroot : root.find? sectionKey = some (.object members)) :
    upgradeRoot root = .ok (some (root.insert sectionKey
      (.object (members.insert flowKey (.object (l.converted flow)))))) := by
  unfold upgradeRoot
  simp only [hroot, h.stored, h.upgradeFlow_eq]
  rfl

/-! ## What a reader makes of it -/

theorem inOrder_converted (h : Members.InOrder flow) : (l.converted flow).InOrder :=
  (((((h.erase _).erase _).erase _).erase _).insert _ _)

/-- The conversion leaves all other members as they were. -/
theorem find?_converted {name : String} (hlegacy : name ∉ allLegacyKeys)
    (hdevices : name ≠ devicesKey) : (l.converted flow).find? name = flow.find? name := by
  have herase : ∀ (keys : List String) (ms : Members), name ∉ keys →
      (keys.foldl Members.erase ms).find? name = ms.find? name := by
    intro keys
    induction keys with
    | nil => exact fun _ _ => rfl
    | cons key rest ih =>
      intro ms hkeys
      rw [List.mem_cons, not_or] at hkeys
      rw [List.foldl_cons, ih _ hkeys.2, Members.find?_erase, if_neg (Ne.symm hkeys.1)]
  rw [converted, Members.find?_insert, if_neg (Ne.symm hdevices), herase _ _ hlegacy]

end LegacyFlow

/-- A flow has the value of another one in the field of a name. -/
structure Flow.Right (target : Flow) (name : String) (f : Flow) : Prop where
  activation : name = "activationTime" → f.activation = target.activation
  deactivation : name = "deactivationTime" → f.deactivation = target.deactivation
  separation : name = "deactivationSepTime" → f.separation = target.separation
  devices : name = devicesKey → f.devices = target.devices

/-- A section has the value of another one in the field of a name. -/
structure Section.Right (target : Section) (name : String) (a : Section) : Prop where
  mode : name = "mode" → a.mode = target.mode
  flow : name = flowKey → a.flow = target.flow

namespace LegacyFlow

variable {l : LegacyFlow} {members flow : Members}

theorem Says.read_converted (h : l.Says members flow) (hin : Members.InOrder flow) :
    Flow.schema.record .value (Value.object (l.converted flow)).tree = .ok l.present := by
  have hnumber {name : String} {n : UInt64} (hn : (flow.find? name).bind Value.natural? = some n)
      (hlegacy : name ∉ allLegacyKeys) (hdevices : name ≠ devicesKey) :
      (l.converted flow).find? name = some (.ofNatural n) := by
    rw [find?_converted hlegacy hdevices, find?_ofNatural hn]
  have hlist : (l.converted flow).find? devicesKey =
      some (.array (l.present.devices.map fun e => e.value.sorted)) := by
    rw [converted, Members.find?_insert, if_pos rfl]
  have hfields : ∀ f ∈ Flow.schema.fields, Flow.schema.field? f.name = some f ∧
      ∃ v, (l.converted flow).find? f.name = some v ∧
        Schema.Reads .value (Flow.Right l.present) f v := by
    intro f hf
    simp only [Flow.schema, List.mem_cons, List.not_mem_nil, or_false] at hf
    rcases hf with rfl | rfl | rfl | rfl
    · exact ⟨rfl, _, hnumber h.activation (by decide) (by decide),
        Schema.reads_of (uint64_ofNatural ..) (fun _ => ⟨fun _ => rfl, nofun, nofun, nofun⟩)
          fun _ _ hr => ⟨fun _ => rfl, hr.deactivation, hr.separation, hr.devices⟩⟩
    · exact ⟨rfl, _, hnumber h.deactivation (by decide) (by decide),
        Schema.reads_of (uint64_ofNatural ..) (fun _ => ⟨nofun, fun _ => rfl, nofun, nofun⟩)
          fun _ _ hr => ⟨hr.activation, fun _ => rfl, hr.separation, hr.devices⟩⟩
    · exact ⟨rfl, _, hnumber h.separation (by decide) (by decide),
        Schema.reads_of (uint64_ofNatural ..) (fun _ => ⟨nofun, nofun, fun _ => rfl, nofun⟩)
          fun _ _ hr => ⟨hr.activation, hr.deactivation, fun _ => rfl, hr.devices⟩⟩
    · exact ⟨rfl, _, hlist,
        Schema.reads_of (list_array DeviceEntry.read_sorted _)
          (fun _ => ⟨nofun, nofun, nofun, fun _ => rfl⟩)
          fun _ _ hr => ⟨hr.activation, hr.deactivation, hr.separation, fun _ => rfl⟩⟩
  obtain ⟨f, hread, hright⟩ := Schema.record_of_fields (inOrder_converted hin).nodup hfields
  have hactivation := (hright _ (.head _)).activation rfl
  have hdeactivation := (hright _ (.tail _ (.head _))).deactivation rfl
  have hseparation := (hright _ (.tail _ (.tail _ (.head _)))).separation rfl
  have hdevices := (hright _ (.tail _ (.tail _ (.tail _ (.head _))))).devices rfl
  obtain ⟨activation, deactivation, separation, devices⟩ := f
  obtain rfl : activation = _ := hactivation
  obtain rfl : deactivation = _ := hdeactivation
  obtain rfl : separation = _ := hseparation
  obtain rfl : devices = _ := hdevices
  exact hread

/-- **The converted section is read as the legacy one was meant.** -/
theorem Says.ofValue_converted (h : l.Says members flow) (hin : (Value.object members).InOrder) :
    Section.ofValue (.object (members.insert flowKey (.object (l.converted flow)))) =
      .ok ⟨cycledFlow, l.present⟩ := by
  have hflow : Members.InOrder flow := (hin.find? h.stored).1
  have hmode : (members.insert flowKey (.object (l.converted flow))).find? "mode" =
      some (.text cycledFlow) := by
    rw [Members.find?_insert, if_neg (by decide), h.mode]
  have hstored : (members.insert flowKey (.object (l.converted flow))).find? flowKey =
      some (.object (l.converted flow)) := by
    rw [Members.find?_insert, if_pos rfl]
  have hfields : ∀ f ∈ Section.schema.fields, Section.schema.field? f.name = some f ∧
      ∃ v, (members.insert flowKey (.object (l.converted flow))).find? f.name = some v ∧
        Schema.Reads .value (Section.Right ⟨cycledFlow, l.present⟩) f v := by
    intro f hf
    simp only [Section.schema, List.mem_cons, List.not_mem_nil, or_false] at hf
    rcases hf with rfl | rfl
    · exact ⟨rfl, _, hmode, Schema.reads_of (b := cycledFlow) rfl
        (fun _ => ⟨fun _ => rfl, nofun⟩) fun _ _ hr => ⟨fun _ => rfl, hr.flow⟩⟩
    · exact ⟨rfl, _, hstored, Schema.reads_of (h.read_converted hflow)
        (fun _ => ⟨nofun, fun _ => rfl⟩) fun _ _ hr => ⟨hr.mode, fun _ => rfl⟩⟩
  obtain ⟨a, hread, hright⟩ := Schema.record_of_fields (hin.1.insert _ _).nodup hfields
  have hmode' := (hright _ (.head _)).mode rfl
  have hflow' := (hright _ (.tail _ (.head _))).flow rfl
  obtain ⟨mode, flow'⟩ := a
  obtain rfl : mode = _ := hmode'
  obtain rfl : flow' = _ := hflow'
  unfold Section.ofValue Reader.ofValue
  rw [hread]
  rfl

/-! ## What it asks for -/

/-- Whether a device is enabled on a pin that is too large for a line. -/
def isTooLarge (l : LegacyFlow) (r : Role) : Bool :=
  l.enabled.get r && UInt32.size ≤ (l.pins.get r).toNat

/-- The lines of the devices that are enabled. -/
def lines (l : LegacyFlow) : Each (Option Offset) :=
  ⟨if l.enabled.valve then some l.pins.valve.toUInt32 else none,
    if l.enabled.pump then some l.pins.pump.toUInt32 else none⟩

/-- The stored durations. -/
def timing (l : LegacyFlow) : Timing := ⟨l.activation, l.deactivation, l.separation⟩

theorem get_lines (l : LegacyFlow) (r : Role) :
    l.lines.get r = if l.enabled.get r then some (l.pins.get r).toUInt32 else none := by
  cases r <;> rfl

theorem device?_present (l : LegacyFlow) (r : Role) : l.present.device? r = some (l.entry r) := by
  cases r <;> rfl

/-- What the converted flow asks of a device. -/
theorem wish?_present (l : LegacyFlow) (r : Role) : l.present.wish? r =
    if l.isTooLarge r then .error (.malformed s!"pinID {l.pins.get r} out of range")
    else .ok ⟨l.lines.get r, some (l.enabled.get r)⟩ := by
  rw [Flow.wish?, device?_present, get_lines, isTooLarge]
  cases hon : l.enabled.get r with
  | false => simp [entry, DeviceEntry.offset?, hon, Except.map]
  | true =>
    by_cases hfits : (l.pins.get r).toNat < UInt32.size
    · simp [entry, DeviceEntry.offset?, hon, hfits, Nat.not_le.mpr hfits, Except.map]
    · simp [entry, DeviceEntry.offset?, hon, hfits, Nat.not_lt.mp hfits, Except.map]

theorem line?_present (l : LegacyFlow) (r : Role) : l.present.line? r = l.lines.get r := by
  rw [Flow.line?, device?_present, get_lines, Option.bind_some, entry]
  cases hon : l.enabled.get r <;> simp

theorem lines_present (l : LegacyFlow) : l.present.lines = l.lines :=
  congrArg₂ Each.mk (l.line?_present .valve) (l.line?_present .pump)

/-- The converted section is sound if no pin is too large. -/
theorem sound_present (h : ∀ r, l.isTooLarge r = false) :
    Section.Sound ⟨cycledFlow, l.present⟩ where
  mode := rfl
  pins := by
    intro r e he hon
    obtain rfl := Option.some.inj ((l.device?_present r).symm.trans he)
    have hon : l.enabled.get r = true := hon
    have hfits := h r
    rw [isTooLarge, hon, Bool.true_and, decide_eq_false_iff_not, Nat.not_le] at hfits
    rwa [entry, if_pos hon]

end LegacyFlow

namespace Document

variable {d : Document} {l : LegacyFlow} {members flow : Members}

/-- **A legacy project can be brought up to date**, and its section is converted then. -/
theorem fixed_of_says (hd : d.section? sectionKey = some (.object members))
    (h : l.Says members flow) : ∃ d', d.fixed = .ok d' ∧ d'.section? sectionKey =
      some (.object (members.insert flowKey (.object (l.converted flow)))) := by
  let converted : Value := .object (members.insert flowKey (.object (l.converted flow)))
  have hroot : d.titled.root.find? sectionKey = some (.object members) :=
    (d.section?_titled (by decide)).trans hd
  refine ⟨(d.titled.setSection sectionKey converted).stamp versionKey currentVersion, ?_, ?_⟩
  · rw [fixed, upgrade, h.upgradeRoot_eq hroot]
    rfl
  · rw [section?_stamp _ _ _ (by decide), section?_setSection, if_pos rfl]

end Document

end Project

/-! ## What a load does -/

namespace Watering

variable {s : Watering} {d d' : Project.Document} {l : LegacyFlow} {members flow : Members}

/-- Takes over what a legacy flow says: the lines of the enabled devices, and if these can be had,
flags and durations. A pin that is too large for a line is refused at once, the valve's first. -/
def adoptLegacy (l : LegacyFlow) (s : Watering) : Except Error Unit × Watering :=
  match Role.all.find? l.isTooLarge with
  | some r => (.error (.project (.malformed s!"pinID {l.pins.get r} out of range")), s)
  | none =>
    match s.rebind l.lines with
    | (.error e, s) => (.error (.line e), s)
    | (.ok (), s) => (.ok (), { s with enabled := l.enabled, timing := l.timing })

theorem adoptLegacy_of_fits (h : ∀ r, l.isTooLarge r = false) : s.adoptLegacy l =
    match s.rebind l.lines with
    | (.error e, s) => (.error (.line e), s)
    | (.ok (), s) => (.ok (), { s with enabled := l.enabled, timing := l.timing }) := by
  have hnone : Role.all.find? l.isTooLarge = none :=
    List.find?_eq_none.mpr fun r _ => Bool.eq_false_iff.mp (h r)
  rw [adoptLegacy, hnone]

/-- A load of the converted section does what the legacy flow says. -/
theorem loadFrom_converted (hsafe : s.rig.faults.deadlyLine = none)
    (hd : d'.section? sectionKey =
      some (.object (members.insert flowKey (.object (l.converted flow)))))
    (h : l.Says members flow) (hin : (Value.object members).InOrder) :
    (s.loadFrom d').1 = (s.adoptLegacy l).1 ∧ (s.adoptLegacy l).2.Agrees (s.loadFrom d').2 := by
  have hread := h.ofValue_converted hin
  have hrefused (r : Role) (hrefused : l.present.wish? .valve = .error
        (.malformed s!"pinID {l.pins.get r} out of range") ∨
      (∃ valve, l.present.wish? .valve = .ok valve) ∧ l.present.wish? .pump = .error
        (.malformed s!"pinID {l.pins.get r} out of range"))
      (hadopt : s.adoptLegacy l =
        (.error (.project (.malformed s!"pinID {l.pins.get r} out of range")), s)) :
      (s.loadFrom d').1 = (s.adoptLegacy l).1 ∧
        (s.adoptLegacy l).2.Agrees (s.loadFrom d').2 := by
    obtain ⟨s₀, hsaid₀, hload⟩ := loadFrom_eq hd hread rfl s
    obtain ⟨s₁, hsaid₁, happly⟩ := applyFlow_refused s₀ hrefused
    rw [hload, happly, hadopt]
    exact ⟨rfl, (hsaid₀.trans hsaid₁).agrees⟩
  cases hvalve : l.isTooLarge .valve with
  | true =>
    refine hrefused .valve (.inl (by rw [l.wish?_present, hvalve, if_pos rfl])) ?_
    rw [adoptLegacy, Role.all, List.find?_cons, hvalve]
  | false =>
    have hvalveWish := l.wish?_present .valve
    rw [hvalve, if_neg Bool.false_ne_true] at hvalveWish
    cases hpump : l.isTooLarge .pump with
    | true =>
      refine hrefused .pump (.inr ⟨⟨_, hvalveWish⟩, by rw [l.wish?_present, hpump, if_pos rfl]⟩) ?_
      rw [adoptLegacy, Role.all, List.find?_cons, hvalve, List.find?_cons, hpump]
    | false =>
      have hfits : ∀ r, l.isTooLarge r = false := fun r => by cases r <;> assumption
      obtain ⟨s₁, hload⟩ := loadsByMove hsafe hd hread (l.sound_present hfits)
      obtain ⟨hagrees, hfailed, hdone⟩ := hload
      rw [l.lines_present] at hagrees hfailed hdone
      rw [adoptLegacy_of_fits hfits]
      rcases hmove : s.rebind l.lines with ⟨e | _, s₂⟩
      · rw [hmove] at hagrees
        rw [hfailed e (congrArg Prod.fst hmove)]
        exact ⟨rfl, hagrees⟩
      · obtain ⟨s₃, hsaid, hload⟩ := hdone (congrArg Prod.fst hmove)
        rw [hload]
        refine ⟨rfl, ?_⟩
        obtain ⟨journal, rfl⟩ := hagrees
        obtain ⟨entries, rfl⟩ := hsaid
        rw [hmove]
        exact ⟨_, rfl⟩

/-- The two ways of taking over a legacy flow. -/
theorem adoptLegacy_cases (l : LegacyFlow) (s : Watering) :
    (∃ r, l.isTooLarge r = true ∧ s.adoptLegacy l =
      (.error (.project (.malformed s!"pinID {l.pins.get r} out of range")), s)) ∨
    (∀ r, l.isTooLarge r = false) ∧ (∀ e, (s.rebind l.lines).1 = .error e →
        s.adoptLegacy l = (.error (.line e), (s.rebind l.lines).2)) ∧
      ((s.rebind l.lines).1 = .ok () → s.adoptLegacy l =
        (.ok (), { (s.rebind l.lines).2 with enabled := l.enabled, timing := l.timing })) := by
  cases hfind : Role.all.find? l.isTooLarge with
  | some r => exact .inl ⟨r, List.find?_some hfind, by rw [adoptLegacy, hfind]⟩
  | none =>
    have hfits : ∀ r, l.isTooLarge r = false := fun r =>
      Bool.eq_false_iff.mpr (List.find?_eq_none.mp hfind r (Role.mem_all r))
    refine .inr ⟨hfits, ?_⟩
    rw [adoptLegacy_of_fits hfits]
    rcases s.rebind l.lines with ⟨e | _, s₂⟩
    · refine ⟨fun e' he => ?_, nofun⟩
      rw [Except.error.inj he]
    · exact ⟨nofun, fun _ => rfl⟩

/-- It succeeds if no pin is too large and the lines can be had. -/
theorem adoptLegacy_ok_iff : (s.adoptLegacy l).1 = .ok () ↔
    (∀ r, l.isTooLarge r = false) ∧ (s.rebind l.lines).1 = .ok () := by
  obtain ⟨r, hlarge, heq⟩ | ⟨hfits, hfailed, hdone⟩ := adoptLegacy_cases l s
  · rw [heq]
    refine iff_of_false nofun fun h => ?_
    rw [h.1 r] at hlarge
    cases hlarge
  · cases hmove : (s.rebind l.lines).1 with
    | error e =>
      rw [hfailed e hmove]
      exact iff_of_false nofun nofun
    | ok _ =>
      rw [hdone hmove]
      exact iff_of_true rfl ⟨hfits, rfl⟩

/-- What it means that a legacy project keeps its meaning. -/
structure Migrates (s : Watering) (d : Project.Document) (l : LegacyFlow) : Prop where
  /-- The document can be brought up to date, and a load of what comes out gives the result that
  taking over the legacy flow gives, and leaves the same but for the journal. -/
  current : ∃ d', (∀ (σ : Type) [Journaling σ] (t : σ), (d.fix t).1 = .ok () ∧ (d.fix t).2.1 = d') ∧
    (s.loadFrom d').1 = (s.adoptLegacy l).1 ∧ (s.adoptLegacy l).2.Agrees (s.loadFrom d').2
  /-- It succeeds unless an enabled device has a pin of 2³² or more, or the move fails. -/
  accepted : (s.adoptLegacy l).1 = .ok () ↔
    (∀ r, l.enabled.get r = true → (l.pins.get r).toNat < 2 ^ 32) ∧
      (s.rebind l.lines).1 = .ok ()
  /-- Then each enabled device is bound on its legacy pin, and a disabled one on its own line. -/
  bound : (s.adoptLegacy l).1 = .ok () → ∀ r, ∃ o,
    ((s.adoptLegacy l).2.hardware.slot r).output = some o ∧ o.offset.toNat =
      if l.enabled.get r then (l.pins.get r).toNat else (s.hardware.slot r).offset.toNat
  /-- If it fails, flags and durations stay as they are. -/
  refused : ∀ e, (s.adoptLegacy l).1 = .error e →
    (s.adoptLegacy l).2.enabled = s.enabled ∧ (s.adoptLegacy l).2.timing = s.timing

end Watering

namespace World

open Watering

variable {w : World} {d : Project.Document} {l : LegacyFlow} {members flow : Members}

theorem isTooLarge_eq_false_iff : (∀ r, l.isTooLarge r = false) ↔
    ∀ r, l.enabled.get r = true → (l.pins.get r).toNat < 2 ^ 32 := by
  refine forall_congr' fun r => ?_
  rw [LegacyFlow.isTooLarge]
  cases l.enabled.get r <;> simp [UInt32.size]

/-- The members of a document that was read from a text are in order. -/
theorem inOrder_of_ofText {text : String} (h : Project.Document.ofText text = .ok d) :
    (Value.object d.root).InOrder := by
  unfold Project.Document.ofText at h
  cases hread : Value.read text with
  | error f =>
    rw [hread] at h
    cases h
  | ok v =>
    rw [hread] at h
    cases v with
    | object members =>
      obtain rfl := Except.ok.inj h
      exact Value.inOrder_of_read hread
    | _ => cases h

/-- **Migration preserves meaning**, for any legacy document and in any reachable world. Members in
order are what a document has that was read from a text (`inOrder_of_ofText`). -/
theorem migration_preserves_meaning (h : w.Reachable) (hin : (Value.object d.root).InOrder)
    (hd : d.section? sectionKey = some (.object members)) (hl : l.Says members flow) :
    w.system.Migrates d l where
  current := by
    obtain ⟨d', hfixed, hsection⟩ := Project.Document.fixed_of_says hd hl
    refine ⟨d', fun σ _ t => ?_,
      loadFrom_converted (by rw [h.steady.faults]) hsection hl (hin.find? hd)⟩
    obtain ⟨_, -, ⟨e, herror, -⟩ | ⟨d₁, hok, hfix⟩⟩ := d.fix_eq t
    · rw [hfixed] at herror
      cases herror
    · obtain rfl := Except.ok.inj (hfixed.symm.trans hok)
      rw [hfix]
      exact ⟨rfl, rfl⟩
  accepted := by rw [adoptLegacy_ok_iff, isTooLarge_eq_false_iff]
  bound := by
    intro hok r
    obtain ⟨hfits, hmove⟩ := adoptLegacy_ok_iff.mp hok
    obtain ⟨o, ho, hline, -⟩ := h.rebind_holds hmove r
    have hhardware : (w.system.adoptLegacy l).2.hardware =
        (w.system.rebind l.lines).2.hardware := by
      obtain ⟨_, -, heq⟩ | ⟨-, -, hdone⟩ := adoptLegacy_cases l w.system
      · rw [heq] at hok
        cases hok
      · rw [hdone hmove]
    refine ⟨o, by rw [hhardware]; exact ho, ?_⟩
    rw [hline, l.get_lines]
    cases hon : l.enabled.get r with
    | false => rfl
    | true =>
      have hlt := isTooLarge_eq_false_iff.mp hfits r hon
      exact (UInt64.toNat_toUInt32 _).trans (Nat.mod_eq_of_lt hlt)
  refused := by
    intro e he
    obtain ⟨r, -, heq⟩ | ⟨-, hfailed, hdone⟩ := adoptLegacy_cases l w.system
    · rw [heq]
      exact ⟨rfl, rfl⟩
    · cases hmove : (w.system.rebind l.lines).1 with
      | error e' =>
        rw [hfailed e' hmove]
        exact h.rebind_keeps l.lines
      | ok _ =>
        rw [hdone hmove] at he
        cases he

/-! ### A legacy project for a running job -/

/-- The flow of a legacy project: the valve on line 5, and the pump disabled, with a pin that is
none. -/
def plotFlow : Members :=
  [("activationTime", .number (.whole 7000)), ("deactivationSepTime", .number (.whole 300)),
    ("deactivationTime", .number (.whole 90000)), ("isWaterPumpEnabled", .bool false),
    ("isWaterValveEnabled", .bool true), ("pumpPinID", .text "unplugged"),
    ("valvePinID", .number (.whole 5))]

/-- Its section. -/
def plotSection : Members :=
  [("flow", .object plotFlow), ("mode", .text "cycled"), ("note", .text "north bed")]

/-- The project, without a version. -/
def plot : Project.Document :=
  ⟨[("automaticWateringSystem", .object plotSection), ("title", .text "plot")]⟩

/-- What it says. -/
def plotLegacy : LegacyFlow := ⟨7000, 90000, 300, ⟨true, false⟩, ⟨5, 0⟩⟩

theorem says_plotLegacy : plotLegacy.Says plotSection plotFlow where
  mode := rfl
  stored := rfl
  legacy := rfl
  activation := rfl
  deactivation := rfl
  separation := rfl
  enabled := fun r => by cases r <;> rfl
  pin := fun r hon => by
    cases r with
    | valve => rfl
    | pump => cases hon

theorem inOrder_plot : (Value.object plot.root).InOrder := by
  simp only [plot, plotSection, plotFlow, Value.InOrder, Value.MembersInOrder]
  decide

/-- The valve is moved while the worker is about to start the pump, which keeps its line. -/
theorem legacy_valve_moved_while_watering : ∃ w : World,
    after ⟨⟨17, .activeHigh⟩, ⟨27, .activeLow⟩⟩ (.call (.start none) :: List.replicate 9 .work) =
      some w ∧
    (w.system.adoptLegacy plotLegacy).1 = .ok () ∧ w.system.Migrates plot plotLegacy := by
  obtain ⟨w, hw, hfacts⟩ := (Option.any_eq_true
    (fun w : World => (w.system.adoptLegacy plotLegacy).1.toBool) _).mp
    (show Option.any _ (after ⟨⟨17, .activeHigh⟩, ⟨27, .activeLow⟩⟩
      (.call (.start none) :: List.replicate 9 .work)) = true by rfl)
  have hok : (w.system.adoptLegacy plotLegacy).1 = .ok () := by
    cases hq : (w.system.adoptLegacy plotLegacy).1 with
    | error e =>
      rw [hq] at hfacts
      cases hfacts
    | ok _ => rfl
  exact ⟨w, hw, hok,
    migration_preserves_meaning (reachable_of_after hw) inOrder_plot rfl says_plotLegacy⟩

end World

end Irrigation
