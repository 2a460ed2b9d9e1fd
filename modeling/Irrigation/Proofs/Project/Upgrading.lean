import Irrigation.Proofs.Json.Ordered
import Irrigation.Proofs.Project.Fixing
import Irrigation.Proofs.Project.History

/-!
# Converting a legacy flow

What the conversion does with a document is decided by a few of its members, whatever the rest of
it holds: whether there is a flow, whether the flow is in the legacy layout, and which of the four
legacy values cannot be used (`Project.unusable`). A conversion changes the members of the flow that
it is about and no other member at any level (`Document.Converted`).

The conversion can also be done in the document itself, member by member
(`Document.convertInPlace`). A failure leaves the document then as the steps before it left it. It
comes to the same, since all that can fail comes before the first change.

The main result is `Document.upgrades_every_document`, which says all that the conversion does.
-/

namespace Irrigation

open Json

namespace Json.Members

/-- Removing names removes these and no other. -/
theorem find?_foldl_erase (names : List String) (ms : Members) (name : String) :
    (names.foldl erase ms).find? name = if name ∈ names then none else ms.find? name := by
  induction names generalizing ms with
  | nil => rfl
  | cons first rest ih =>
    rw [List.foldl_cons, ih, find?_erase]
    by_cases hrest : name ∈ rest
    · rw [if_pos hrest, if_pos (List.mem_cons_of_mem _ hrest)]
    · by_cases hfirst : first = name
      · rw [if_neg hrest, if_pos hfirst, if_pos (hfirst ▸ List.mem_cons_self)]
      · have hnone : name ∉ first :: rest := by simp [hrest, Ne.symm hfirst]
        rw [if_neg hrest, if_neg hfirst, if_neg hnone]

theorem contains_iff {ms : Members} {name : String} :
    ms.contains name = true ↔ ∃ v, ms.find? name = some v := Option.isSome_iff_exists

theorem contains_eq_false {ms : Members} {name : String} :
    ms.contains name = false ↔ ms.find? name = none := Option.isSome_eq_false_iff.trans
  Option.isNone_iff_eq_none

end Json.Members

namespace Json.Value.InOrder

variable {ms : Members}

theorem erase (h : (object ms).InOrder) (name : String) : (object (ms.erase name)).InOrder :=
  ⟨Members.InOrder.erase h.1 name, membersInOrder_iff.mpr fun m hm =>
    membersInOrder_iff.mp h.2 m (List.mem_of_mem_filter hm)⟩

theorem foldl_erase (names : List String) (h : (object ms).InOrder) :
    (object (names.foldl Members.erase ms)).InOrder := by
  induction names generalizing ms with
  | nil => exact h
  | cons first rest ih => exact ih (h.erase first)

end Json.Value.InOrder

namespace Project

variable {flow : Members} {r : Role}

/-! ## The four legacy values -/

/-- The flag of a device in a legacy flow, if it is one. -/
def legacyFlag? (flow : Members) (r : Role) : Option Bool :=
  (flow.find? (legacyKeys r).enabled).bind Value.bool?

/-- The pin of a device in a legacy flow, if it is a number that a pin can be. -/
def legacyPin? (flow : Members) (r : Role) : Option UInt64 :=
  (flow.find? (legacyKeys r).pin).bind Value.natural?

/-- The legacy members of a device that cannot be used: a flag that is none, and the pin of an
enabled device if it is none. -/
def unusableFor (flow : Members) (r : Role) : List String :=
  (if legacyFlag? flow r = none then [(legacyKeys r).enabled] else []) ++
    if legacyFlag? flow r = some true ∧ legacyPin? flow r = none then [(legacyKeys r).pin] else []

/-- The legacy members that cannot be used, those of the valve first, and the flag of each device
before its pin. -/
def unusable (flow : Members) : List String := Role.all.flatMap (unusableFor flow)

/-- The entry that a device gets: its legacy flag, and its legacy pin if it is enabled. -/
def convertedEntry (flow : Members) (r : Role) : DeviceEntry :=
  let enabled := (legacyFlag? flow r).getD false
  { name := r.projectName
    pin := if enabled then (legacyPin? flow r).getD 0 else 0
    polarity := .activeLow
    enabled }

theorem legacyDevice_unusable {key : String} (h : (unusableFor flow r).head? = some key) :
    legacyDevice flow r = .error (.missing key) := by
  unfold legacyDevice
  unfold unusableFor legacyFlag? legacyPin? at h
  cases hflag : (flow.find? (legacyKeys r).enabled).bind Value.bool? with
  | none =>
    rw [hflag] at h
    obtain rfl := Option.some.inj h
    simp only [hflag]
  | some enabled =>
    rw [hflag] at h
    cases hpin : (flow.find? (legacyKeys r).pin).bind Value.natural? with
    | some pin => simp [hpin] at h
    | none =>
      cases enabled with
      | false => simp at h
      | true =>
        rw [hpin] at h
        obtain rfl := Option.some.inj h
        simp only [hflag, hpin, if_true]
        rfl

theorem legacyDevice_usable (h : unusableFor flow r = []) :
    legacyDevice flow r = .ok (convertedEntry flow r).value.sorted := by
  rw [unusableFor, List.append_eq_nil_iff] at h
  obtain ⟨hflag, hpin⟩ := h
  unfold legacyDevice convertedEntry
  unfold legacyFlag? at hflag hpin ⊢
  unfold legacyPin? at hpin ⊢
  cases hf : (flow.find? (legacyKeys r).enabled).bind Value.bool? with
  | none =>
    rw [hf] at hflag
    cases hflag
  | some enabled =>
    cases enabled with
    | false =>
      simp only [hf]
      rfl
    | true =>
      rw [hf] at hpin
      cases hp : (flow.find? (legacyKeys r).pin).bind Value.natural? with
      | none =>
        rw [hp] at hpin
        simp at hpin
      | some pin =>
        simp only [hf, hp, if_true]
        rfl

/-- The members of a flow after the conversion. -/
def convertedFlow (flow : Members) : Members :=
  (allLegacyKeys.foldl Members.erase flow).insert devicesKey
    (.array (Role.all.map fun r => (convertedEntry flow r).value.sorted))

/-- **What becomes of a flow.** -/
theorem upgradeFlow_eq (flow : Members) : upgradeFlow flow =
    if isLegacy flow then
      match (unusable flow).head? with
      | some key => .error (.missing key)
      | none => .ok (some (convertedFlow flow))
    else .ok none := by
  unfold upgradeFlow
  cases isLegacy flow with
  | false => rfl
  | true =>
    simp only [unusable, Role.all, List.flatMap_cons, List.flatMap_nil, List.append_nil,
      List.head?_append]
    cases hvalve : (unusableFor flow .valve).head? with
    | some key =>
      rw [legacyDevice_unusable hvalve]
      rfl
    | none =>
      rw [legacyDevice_usable (List.head?_eq_none_iff.mp hvalve)]
      cases hpump : (unusableFor flow .pump).head? with
      | some key =>
        rw [legacyDevice_unusable hpump]
        rfl
      | none =>
        rw [legacyDevice_usable (List.head?_eq_none_iff.mp hpump)]
        rfl

example : upgradeFlow [("isWaterValveEnabled", .bool true), ("pumpPinID", .null)] =
    .error (.missing "valvePinID") := rfl

theorem find?_convertedFlow (flow : Members) (name : String) :
    (convertedFlow flow).find? name =
      if name = devicesKey then
        some (.array (Role.all.map fun r => (convertedEntry flow r).value.sorted))
      else if name ∈ allLegacyKeys then none
      else flow.find? name := by
  rw [convertedFlow, Members.find?_insert, Members.find?_foldl_erase]
  by_cases hname : name = devicesKey
  · rw [if_pos hname, if_pos hname.symm]
  · rw [if_neg hname, if_neg (Ne.symm hname)]

/-- A flow with a list of devices is no legacy one any more. -/
theorem not_isLegacy_convertedFlow (flow : Members) : isLegacy (convertedFlow flow) = false := by
  have hdevices : (convertedFlow flow).contains devicesKey = true :=
    Members.contains_iff.mpr ⟨_, by rw [find?_convertedFlow, if_pos rfl]⟩
  rw [isLegacy, hdevices]
  rfl

theorem isLegacy_eq_false_iff : isLegacy flow = false ↔
    flow.contains devicesKey = true ∨ ∀ key ∈ allLegacyKeys, flow.contains key = false := by
  rw [isLegacy, Bool.and_eq_false_iff, Bool.not_eq_false', List.any_eq_false]
  simp only [Bool.not_eq_true]

end Project

/-! ## Documents -/

namespace Project.Document

variable {d : Document} {members flow : Members}

/-- A document with a flow in its watering section. -/
structure HasFlow (d : Document) (members flow : Members) : Prop where
  stored : d.section? sectionKey = some (.object members)
  flow : members.find? flowKey = some (.object flow)

/-- The document with other members in its flow. -/
def withFlow (d : Document) (members flow : Members) : Document :=
  d.setSection sectionKey (.object (members.insert flowKey (.object flow)))

theorem HasFlow.withFlow (d : Document) (members flow : Members) :
    (d.withFlow members flow).HasFlow (members.insert flowKey (.object flow)) flow where
  stored := by rw [Document.withFlow, section?_setSection, if_pos rfl]
  flow := by rw [Members.find?_insert, if_pos rfl]

theorem upgrade_of_absent (h : d.section? sectionKey = none) : d.upgrade = .ok (false, d) := by
  have hroot : d.root.find? sectionKey = none := h
  unfold upgrade upgradeRoot
  simp only [hroot]
  rfl

theorem upgrade_of_misshapen {stored : Value} (h : d.section? sectionKey = some stored)
    (hnone : ∀ members flow, ¬ d.HasFlow members flow) :
    d.upgrade = .error (.missing flowKey) := by
  have hroot : d.root.find? sectionKey = some stored := h
  unfold upgrade upgradeRoot
  simp only [hroot]
  cases stored with
  | object members =>
    cases hflow : Members.find? members flowKey with
    | none => simp only [hflow]; rfl
    | some v =>
      cases v with
      | object flow => exact absurd ⟨h, hflow⟩ (hnone members flow)
      | _ => simp only [hflow]; rfl
  | _ => rfl

/-- What becomes of a document that has a flow. -/
theorem HasFlow.upgrade_eq (h : d.HasFlow members flow) : d.upgrade =
    (upgradeFlow flow).map fun
      | some converted => (true, d.withFlow members converted)
      | none => (false, d) := by
  have hroot : d.root.find? sectionKey = some (.object members) := h.stored
  unfold upgrade upgradeRoot
  simp only [hroot, h.flow]
  rcases upgradeFlow flow with e | ⟨_ | converted⟩ <;> rfl

theorem HasFlow.upgrade_of_current (h : d.HasFlow members flow) (hcurrent : isLegacy flow = false) :
    d.upgrade = .ok (false, d) := by
  rw [h.upgrade_eq, upgradeFlow_eq, hcurrent]
  rfl

theorem HasFlow.upgrade_of_unusable (h : d.HasFlow members flow) (hlegacy : isLegacy flow = true)
    {key : String} (hkey : (unusable flow).head? = some key) :
    d.upgrade = .error (.missing key) := by
  rw [h.upgrade_eq, upgradeFlow_eq, hlegacy, hkey]
  rfl

theorem HasFlow.upgrade_of_usable (h : d.HasFlow members flow) (hlegacy : isLegacy flow = true)
    (husable : unusable flow = []) :
    d.upgrade = .ok (true, d.withFlow members (convertedFlow flow)) := by
  rw [h.upgrade_eq, upgradeFlow_eq, hlegacy, husable]
  rfl

/-- The ways in which a document can be: without a section, with one that has no flow, with a flow
in the present layout, with a legacy flow that lacks something, or with one that can be
converted. -/
theorem upgrade_cases (d : Document) :
    d.section? sectionKey = none ∨
    (∃ stored, d.section? sectionKey = some stored ∧ ∀ members flow, ¬ d.HasFlow members flow) ∨
    ∃ members flow, d.HasFlow members flow ∧ (isLegacy flow = false ∨
      (isLegacy flow = true ∧ ∃ key, (unusable flow).head? = some key) ∨
      (isLegacy flow = true ∧ unusable flow = [])) := by
  cases hstored : d.section? sectionKey with
  | none => exact .inl rfl
  | some stored =>
    refine .inr ?_
    by_cases hflow : ∃ members flow, d.HasFlow members flow
    · obtain ⟨members, flow, hflow⟩ := hflow
      refine .inr ⟨members, flow, hflow, ?_⟩
      cases isLegacy flow with
      | false => exact .inl rfl
      | true =>
        cases hkey : (unusable flow).head? with
        | some key => exact .inr (.inl ⟨rfl, key, rfl⟩)
        | none => exact .inr (.inr ⟨rfl, List.head?_eq_none_iff.mp hkey⟩)
    · exact .inl ⟨stored, rfl, fun members flow h => hflow ⟨members, flow, h⟩⟩

/-! ## In place -/

/-- Changes the flow of a document, if it has one. -/
def mapFlow (f : Members → Members) (d : Document) : Document :=
  match (d.section? sectionKey).bind Value.members? with
  | some members =>
    match (Members.find? members flowKey).bind Value.members? with
    | some flow => d.withFlow members (f flow)
    | none => d
  | none => d

/-- Changing the flow once more. -/
theorem mapFlow_withFlow (d : Document) (members flow : Members) (f : Members → Members) :
    (d.withFlow members flow).mapFlow f = d.withFlow members (f flow) := by
  have h := HasFlow.withFlow d members flow
  unfold mapFlow
  simp only [h.stored, h.flow, Option.bind_some, Value.members?]
  rw [withFlow, withFlow, withFlow, setSection_setSection, Members.insert_insert]

theorem HasFlow.mapFlow_eq (h : d.HasFlow members flow) (f : Members → Members) :
    d.mapFlow f = d.withFlow members (f flow) := by
  unfold mapFlow
  simp only [h.stored, h.flow, Option.bind_some, Value.members?]

/-- Reading the state hands it on. -/
theorem run_get {ε σ α : Type} (f : σ → EStateM ε σ α) (s : σ) : (get >>= f) s = f s s := rfl

/-- The conversion, done in the document itself: what was changed before a failure stays
changed. -/
def convertInPlace : EStateM ProjectError Document Bool := do
  let d ← get
  let some stored := d.section? sectionKey
    | return false
  let some flow :=
      (stored.members?.bind fun members => Members.find? members flowKey).bind Value.members?
    | throw (.missing flowKey)
  if !isLegacy flow then return false
  let valve ← ofExcept (legacyDevice flow .valve)
  let pump ← ofExcept (legacyDevice flow .pump)
  allLegacyKeys.forM fun key => modify (mapFlow (Members.erase · key))
  modify (mapFlow (Members.insert · devicesKey (.array [valve, pump])))
  return true

/-- Reading a flow out of the document. -/
theorem HasFlow.convertInPlace_eq (h : d.HasFlow members flow) : convertInPlace d =
    if isLegacy flow then
      match legacyDevice flow .valve, legacyDevice flow .pump with
      | .error e, _ => .error e d
      | .ok _, .error e => .error e d
      | .ok valve, .ok pump => .ok true <| d.withFlow members <|
          (allLegacyKeys.foldl Members.erase flow).insert devicesKey (.array [valve, pump])
    else .ok false d := by
  unfold convertInPlace
  rw [run_get]
  simp only [h.stored, h.flow, Value.members?, Option.bind_some]
  cases isLegacy flow with
  | false => rfl
  | true =>
    rcases legacyDevice flow .valve with e | valve
    · rfl
    · rcases legacyDevice flow .pump with e | pump
      · rfl
      · have hrun : (fun d => d.mapFlow (Members.insert · devicesKey (.array [valve, pump])))
            (allLegacyKeys.foldl (fun d key => d.mapFlow (Members.erase · key)) d) =
            d.withFlow members ((allLegacyKeys.foldl Members.erase flow).insert devicesKey
              (.array [valve, pump])) := by
          simp only [allLegacyKeys, Role.all, List.map_cons, List.map_nil, List.cons_append,
            List.nil_append, List.foldl_cons, List.foldl_nil, h.mapFlow_eq, mapFlow_withFlow]
        simp only [if_true]
        rw [← hrun]
        rfl

/-- **The conversion in place comes to the same**, and a failure leaves the document as it was. -/
theorem convertInPlace_eq (d : Document) : convertInPlace d =
    match d.upgrade with
    | .ok (converted, d') => .ok converted d'
    | .error e => .error e d := by
  obtain habsent | ⟨stored, hstored, hnone⟩ | ⟨members, flow, hflow, -⟩ := upgrade_cases d
  · rw [upgrade_of_absent habsent]
    unfold convertInPlace
    rw [run_get]
    simp only [habsent]
    rfl
  · rw [upgrade_of_misshapen hstored hnone]
    have hflow : (stored.members?.bind fun members => Members.find? members flowKey).bind
        Value.members? = none := by
      rw [Option.bind_eq_none_iff]
      intro v hv
      obtain ⟨members, hmembers, hv⟩ := Option.bind_eq_some_iff.mp hv
      cases stored with
      | object _ =>
        obtain rfl := Option.some.inj hmembers
        cases v with
        | object flow => exact absurd ⟨hstored, hv⟩ (hnone _ flow)
        | _ => rfl
      | _ => cases hmembers
    unfold convertInPlace
    rw [run_get]
    simp only [hstored, hflow]
    rfl
  · rw [hflow.upgrade_eq, hflow.convertInPlace_eq]
    unfold upgradeFlow
    cases isLegacy flow with
    | false => rfl
    | true =>
      rcases legacyDevice flow .valve with e | valve
      · rfl
      · rcases legacyDevice flow .pump with e | pump <;> rfl

/-! ## What a conversion changes -/

/-- A document has a flow in the present layout where another one has a legacy flow, and everything
else as that one has it. -/
structure Converted (d d' : Document) (members flow members' flow' : Members) : Prop where
  before : d.HasFlow members flow
  after : d'.HasFlow members' flow'
  /-- The legacy members are gone. -/
  gone : ∀ key ∈ allLegacyKeys, flow'.contains key = false
  /-- The list of devices holds the two entries, and nothing else. -/
  devices : flow'.find? devicesKey = some (.array (Role.all.map fun r =>
    let enabled := (legacyFlag? flow r).getD false
    .object
      [("activationState", .text "Active Low"), ("enabled", .bool enabled),
        ("name", .text r.projectName),
        ("pinID", .ofNatural (if enabled then (legacyPin? flow r).getD 0 else 0))]))
  /-- Every other member of the flow, of the section and of the document is as it was. -/
  flowKept : ∀ name ∉ allLegacyKeys, name ≠ devicesKey → flow'.find? name = flow.find? name
  sectionKept : ∀ name, name ≠ flowKey → members'.find? name = members.find? name
  rootKept : ∀ name, name ≠ sectionKey → d'.section? name = d.section? name
  /-- The members of every object stay in order. -/
  inOrder : (Value.object d.root).InOrder → (Value.object d'.root).InOrder

theorem inOrder_convertedFlow (h : (Value.object flow).InOrder) :
    (Value.object (convertedFlow flow)).InOrder := by
  have hentry (e : DeviceEntry) : e.value.sorted.InOrder := by
    rw [e.sorted_value]
    exact ⟨(by decide : (["activationState", "enabled", "name", "pinID"] : List String).Pairwise
      (· < ·)), trivial, trivial, trivial, trivial, trivial⟩
  exact (h.foldl_erase allLegacyKeys).insert ⟨hentry _, hentry _, trivial⟩

theorem HasFlow.converted (h : d.HasFlow members flow) :
    Converted d (d.withFlow members (convertedFlow flow)) members flow
      (members.insert flowKey (.object (convertedFlow flow))) (convertedFlow flow) where
  before := h
  after := HasFlow.withFlow ..
  gone := by
    intro key hkey
    have hdevices : key ≠ devicesKey := by
      rintro rfl
      exact absurd hkey (by decide)
    rw [Members.contains_eq_false, find?_convertedFlow, if_neg hdevices, if_pos hkey]
  devices := by
    rw [find?_convertedFlow, if_pos rfl]
    simp only [DeviceEntry.sorted_value]
    rfl
  flowKept := by
    intro name hlegacy hdevices
    rw [find?_convertedFlow, if_neg hdevices, if_neg hlegacy]
  sectionKept := by
    intro name hname
    rw [Members.find?_insert, if_neg (Ne.symm hname)]
  rootKept := by
    intro name hname
    rw [Document.withFlow, section?_setSection, if_neg (Ne.symm hname)]
  inOrder := fun hin =>
    hin.insert ((hin.find? h.stored).insert
      (inOrder_convertedFlow ((hin.find? h.stored).find? h.flow)))

/-! ## The conversion as a whole -/

/-- What the conversion does with a document. -/
structure Upgrades (d : Document) : Prop where
  /-- Nothing, if there is no watering section. -/
  absent : d.section? sectionKey = none → d.upgrade = .ok (false, d)
  /-- It fails if that is no object, or has no flow, or one that is no object. -/
  misshapen : d.section? sectionKey ≠ none → (∀ members flow, ¬ d.HasFlow members flow) →
    d.upgrade = .error (.missing flowKey)
  /-- Nothing, if the flow has a list of devices, or none of the legacy members. -/
  current : ∀ members flow, d.HasFlow members flow →
    (flow.contains devicesKey = true ∨ ∀ key ∈ allLegacyKeys, flow.contains key = false) →
    d.upgrade = .ok (false, d)
  /-- It fails for the first legacy member that is needed and cannot be used. -/
  unusable : ∀ members flow, d.HasFlow members flow → flow.contains devicesKey = false →
    (∃ key ∈ allLegacyKeys, flow.contains key = true) →
    ∀ key, (unusable flow).head? = some key → d.upgrade = .error (.missing key)
  /-- It converts any other flow. -/
  converts : ∀ members flow, d.HasFlow members flow → flow.contains devicesKey = false →
    (∃ key ∈ allLegacyKeys, flow.contains key = true) → Project.unusable flow = [] →
    ∃ d' members' flow', d.upgrade = .ok (true, d') ∧ d.Converted d' members flow members' flow'
  /-- It leaves the document alone if it says that there was nothing to convert. -/
  unchanged : ∀ d', d.upgrade = .ok (false, d') → d' = d
  /-- There is nothing to convert a second time. -/
  again : ∀ converted d', d.upgrade = .ok (converted, d') → d'.upgrade = .ok (false, d')
  /-- It can as well be done in place: a failure leaves the document as it was then too. -/
  inPlace : convertInPlace d =
    match d.upgrade with
    | .ok (converted, d') => .ok converted d'
    | .error e => .error e d

theorem isLegacy_of (hdevices : flow.contains devicesKey = false)
    (hkey : ∃ key ∈ allLegacyKeys, flow.contains key = true) : isLegacy flow = true := by
  rw [isLegacy, hdevices, Bool.not_false, Bool.true_and, List.any_eq_true]
  exact hkey

/-- A document that comes out is converted, or it is the one that went in. -/
theorem upgrade_ok {converted : Bool} {d' : Document} (h : d.upgrade = .ok (converted, d')) :
    (converted = false ∧ d' = d) ∨
    ∃ members flow, d.HasFlow members flow ∧ converted = true ∧
      d' = d.withFlow members (convertedFlow flow) := by
  obtain habsent | ⟨stored, hstored, hnone⟩ | ⟨members, flow, hflow, hcases⟩ := upgrade_cases d
  · rw [upgrade_of_absent habsent] at h
    obtain ⟨rfl, rfl⟩ := Prod.mk.inj (Except.ok.inj h)
    exact .inl ⟨rfl, rfl⟩
  · rw [upgrade_of_misshapen hstored hnone] at h
    cases h
  · rcases hcases with hcurrent | ⟨hlegacy, key, hkey⟩ | ⟨hlegacy, husable⟩
    · rw [hflow.upgrade_of_current hcurrent] at h
      obtain ⟨rfl, rfl⟩ := Prod.mk.inj (Except.ok.inj h)
      exact .inl ⟨rfl, rfl⟩
    · rw [hflow.upgrade_of_unusable hlegacy hkey] at h
      cases h
    · rw [hflow.upgrade_of_usable hlegacy husable] at h
      obtain ⟨rfl, rfl⟩ := Prod.mk.inj (Except.ok.inj h)
      exact .inr ⟨members, flow, hflow, rfl, rfl⟩

theorem upgrade_again {converted : Bool} {d' : Document} (h : d.upgrade = .ok (converted, d')) :
    d'.upgrade = .ok (false, d') := by
  obtain ⟨rfl, rfl⟩ | ⟨members, flow, -, -, rfl⟩ := upgrade_ok h
  · exact h
  · exact (HasFlow.withFlow ..).upgrade_of_current (not_isLegacy_convertedFlow flow)

/-- **What the conversion does with any document.** -/
theorem upgrades_every_document (d : Document) : d.Upgrades where
  absent := upgrade_of_absent
  misshapen := by
    intro hsome hnone
    obtain ⟨stored, hstored⟩ := Option.ne_none_iff_exists'.mp hsome
    exact upgrade_of_misshapen hstored hnone
  current := fun members flow h hcurrent => h.upgrade_of_current (isLegacy_eq_false_iff.mpr hcurrent)
  unusable := fun members flow h hdevices hlegacy key hkey =>
    h.upgrade_of_unusable (isLegacy_of hdevices hlegacy) hkey
  converts := fun members flow h hdevices hlegacy husable =>
    ⟨_, _, _, h.upgrade_of_usable (isLegacy_of hdevices hlegacy) husable, h.converted⟩
  unchanged := by
    intro d' h
    obtain ⟨-, rfl⟩ | ⟨-, -, -, hconverted, -⟩ := upgrade_ok h
    · rfl
    · cases hconverted
  again := fun _ _ => upgrade_again
  inPlace := convertInPlace_eq d

end Project.Document

end Irrigation
