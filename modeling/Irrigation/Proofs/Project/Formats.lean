import Irrigation.Proofs.Json.Layout
import Irrigation.Proofs.Json.Records

/-!
# Stored formats

A configuration is stored as an object, in which members may be left out, stand in any order and
have others between them: what is there is read, and what is not keeps its initial value
(`Config.mix`). The watering section of a project is stored with all its members. Both are read as
they were written, from values and from texts in any layout (`stored_formats_decode`).
-/

namespace Irrigation

open Json

/-! ## Configurations -/

namespace Config

variable {c a : Config} {present : String → Bool} {ms : Members}

/-- The names of the members of a configuration. -/
def memberNames : List String :=
  ["chip_path", "valve_pin", "valve_polarity", "pump_pin", "pump_polarity", "valve_enabled",
    "pump_enabled", "activation_time_ms", "deactivation_time_ms", "deactivation_sep_time_ms",
    "max_duration_ms", "max_pin_offset"]

/-- The members that are present, from one configuration, and all others from another one. -/
def mix (present : String → Bool) (c a : Config) : Config where
  chipPath := if present "chip_path" then c.chipPath else a.chipPath
  valvePin := if present "valve_pin" then c.valvePin else a.valvePin
  valvePolarity := if present "valve_polarity" then c.valvePolarity else a.valvePolarity
  pumpPin := if present "pump_pin" then c.pumpPin else a.pumpPin
  pumpPolarity := if present "pump_polarity" then c.pumpPolarity else a.pumpPolarity
  valveEnabled := if present "valve_enabled" then c.valveEnabled else a.valveEnabled
  pumpEnabled := if present "pump_enabled" then c.pumpEnabled else a.pumpEnabled
  activationMs := if present "activation_time_ms" then c.activationMs else a.activationMs
  deactivationMs := if present "deactivation_time_ms" then c.deactivationMs else a.deactivationMs
  separationMs := if present "deactivation_sep_time_ms" then c.separationMs else a.separationMs
  maxDurationMs := if present "max_duration_ms" then c.maxDurationMs else a.maxDurationMs
  maxPinOffset := if present "max_pin_offset" then c.maxPinOffset else a.maxPinOffset

/-- An object holds the members of a configuration that are present, in some order, and perhaps
members of other names. -/
def HeldBy (present : String → Bool) (c : Config) (ms : Members) : Prop :=
  (ms.filter fun m => memberNames.contains m.1).Perm (c.members.filter fun m => present m.1)

theorem mix_mix (p q : String → Bool) (c a : Config) :
    c.mix p (c.mix q a) = c.mix (fun name => p name || q name) a := by
  simp only [mix, Bool.or_eq_true, ite_or]

theorem mix_congr {p q : String → Bool} (h : ∀ name ∈ memberNames, p name = q name) :
    c.mix p a = c.mix q a := by
  simp only [memberNames, List.forall_mem_cons] at h
  simp only [mix, h]

theorem foldl_mix (names : List String) (c a : Config) :
    names.foldl (fun a name => c.mix (fun other => other == name) a) a =
      c.mix names.contains a := by
  induction names generalizing a with
  | nil => rfl
  | cons name names ih =>
    rw [List.foldl_cons, ih, mix_mix]
    exact congrArg (c.mix · a) (funext fun other => (Bool.or_comm ..).trans List.contains_cons.symm)

theorem uint32_offsetValue (origin : Origin) (n : Offset) :
    Reader.uint32 origin (offsetValue n).tree = .ok n := by
  have h := n.toNat_lt_size
  change (Reader.natural "u32" UInt32.size origin
    (.number (.ok (.whole n.toNat)) .nowhere)).map _ = _
  rw [Reader.natural, if_pos (by omega)]
  simp [Except.map]

theorem read_field {β : Type} {name : String} {reader : Reader β} {put : β → Config → Config}
    {k : String} {v : Value} {b : β} (hfield : schema.field? k = some (.of name reader put))
    (hread : reader .value v.tree = .ok b)
    (hput : ∀ a, put b a = c.mix (fun other => other == k) a) :
    ∀ f, schema.field? k = some f →
      ∀ a, f.read .value v.tree a = .ok (c.mix (fun other => other == k) a) := by
  intro f hf a
  obtain rfl := Option.some.inj (hfield.symm.trans hf)
  rw [read_of hread, hput]

/-- Reading a member of a configuration takes over that member and no other. -/
theorem read_member (c : Config) : ∀ m ∈ c.members, ∀ f, schema.field? m.1 = some f →
    ∀ a, f.read .value m.2.tree a = .ok (c.mix (fun other => other == m.1) a) := by
  simp only [members, List.forall_mem_cons]
  exact ⟨read_field rfl rfl fun _ => rfl,
    read_field rfl (uint32_offsetValue .value c.valvePin) fun _ => rfl,
    read_field rfl (Project.read_polarity c.valvePolarity) fun _ => rfl,
    read_field rfl (uint32_offsetValue .value c.pumpPin) fun _ => rfl,
    read_field rfl (Project.read_polarity c.pumpPolarity) fun _ => rfl,
    read_field rfl rfl fun _ => rfl,
    read_field rfl rfl fun _ => rfl,
    read_field rfl (uint64_ofNatural .value c.activationMs) fun _ => rfl,
    read_field rfl (uint64_ofNatural .value c.deactivationMs) fun _ => rfl,
    read_field rfl (uint64_ofNatural .value c.separationMs) fun _ => rfl,
    read_field rfl (uint64_ofNatural .value c.maxDurationMs) fun _ => rfl,
    read_field rfl (uint32_offsetValue .value c.maxPinOffset) fun _ => rfl, nofun⟩

theorem known_eq (ms : Members) :
    schema.known ms = ms.filter fun m => memberNames.contains m.1 :=
  List.filter_congr fun m _ => Schema.isSome_field? m.1

/-- The names of the members of a configuration that an object holds. -/
theorem HeldBy.names (h : c.HeldBy present ms) :
    ((schema.known ms).map Prod.fst).Perm (memberNames.filter present) := by
  have hnames : memberNames = c.members.map Prod.fst := rfl
  rw [known_eq, hnames, List.filter_map]
  exact h.map Prod.fst

/-- **What an object holds of a configuration is read, and everything else is as initially.** -/
theorem HeldBy.record (h : c.HeldBy present ms) :
    schema.record .value (Value.object ms).tree = .ok (c.mix present initial) := by
  have hnodup : ((schema.known ms).map Prod.fst).Nodup :=
    h.names.nodup_iff.mpr ((by decide : memberNames.Nodup).sublist List.filter_sublist)
  have hread : ∀ m ∈ ms, ∀ f, schema.field? m.1 = some f →
      ∀ a, f.read .value m.2.tree a = .ok (c.mix (fun other => other == m.1) a) := by
    intro m hm f hf
    have hknown : m ∈ schema.known ms := List.mem_filter.mpr ⟨hm, by rw [hf]; rfl⟩
    rw [known_eq] at hknown
    exact read_member c m (List.mem_of_mem_filter (h.mem_iff.mp hknown)) f hf
  rw [Schema.record_of_known (fun name a => c.mix (fun other => other == name) a) rfl hnodup hread,
    foldl_mix]
  refine congrArg Except.ok (mix_congr fun name hname => ?_)
  rw [Bool.eq_iff_iff, List.contains_iff_mem, h.names.mem_iff, List.mem_filter]
  exact and_iff_right hname

theorem steady_polarity : Polarity.reader.Steady := Reader.steady_choice _

theorem steady_schema : schema.Steady := by
  simp only [Schema.Steady, schema, List.forall_mem_cons]
  exact ⟨Schema.steady_of Reader.steady_text _ _, Schema.steady_of Reader.steady_uint32 _ _,
    Schema.steady_of steady_polarity _ _, Schema.steady_of Reader.steady_uint32 _ _,
    Schema.steady_of steady_polarity _ _, Schema.steady_of Reader.steady_bool _ _,
    Schema.steady_of Reader.steady_bool _ _, Schema.steady_of Reader.steady_uint64 _ _,
    Schema.steady_of Reader.steady_uint64 _ _, Schema.steady_of Reader.steady_uint64 _ _,
    Schema.steady_of Reader.steady_uint64 _ _, Schema.steady_of Reader.steady_uint32 _ _, nofun⟩

theorem whole_offsetValue (n : Offset) : (offsetValue n).Whole := by
  have h := n.toNat_lt_size
  have hsize : UInt32.size = 0x100000000 := rfl
  exact .number (by omega) (by omega)

end Config

theorem whole_ofNatural (n : UInt64) : (Value.ofNatural n).Whole := by
  have h := n.toNat_lt_size
  have hsize : UInt64.size = 0x10000000000000000 := rfl
  exact .number (by omega) (by omega)

theorem Config.whole_value (c : Config) : c.value.Whole := by
  refine .object ?_
  simp only [members, List.forall_mem_cons]
  exact ⟨.text _, whole_offsetValue _, .text _, whole_offsetValue _, .text _, .bool _, .bool _,
    whole_ofNatural _, whole_ofNatural _, whole_ofNatural _, whole_ofNatural _,
    whole_offsetValue _, nofun⟩

/-! ## The watering section -/

namespace Project

theorem DeviceEntry.read_value (e : DeviceEntry) :
    DeviceEntry.schema.record .value e.value.tree = .ok e := by
  refine record_object ["enabled", "activationState", "pinID", "name"] ?_ rfl
  simp only [Value.memberTrees]
  rw [readMembers_cons rfl rfl (read_of (b := e.name) rfl _),
    readMembers_cons rfl rfl (read_of (uint64_ofNatural .value e.pin) _),
    readMembers_cons rfl rfl (read_of (read_polarity e.polarity) _),
    readMembers_cons rfl rfl (read_of (b := e.enabled) rfl _)]
  rfl

theorem Flow.read_value (f : Flow) : Flow.schema.record .value f.value.tree = .ok f := by
  refine record_object
    [devicesKey, "deactivationSepTime", "deactivationTime", "activationTime"] ?_ rfl
  simp only [Value.memberTrees]
  rw [readMembers_cons rfl rfl (read_of (uint64_ofNatural .value f.activation) _),
    readMembers_cons rfl rfl (read_of (uint64_ofNatural .value f.deactivation) _),
    readMembers_cons rfl rfl (read_of (uint64_ofNatural .value f.separation) _),
    readMembers_cons rfl rfl (read_of (list_array DeviceEntry.read_value f.devices) _)]
  rfl

theorem Section.read_value (a : Section) : Section.schema.record .value a.value.tree = .ok a := by
  refine record_object [flowKey, "mode"] ?_ rfl
  simp only [Value.memberTrees]
  rw [readMembers_cons rfl rfl (read_of (b := a.mode) rfl _),
    readMembers_cons rfl rfl (read_of a.flow.read_value _)]
  rfl

theorem DeviceEntry.steady_schema : DeviceEntry.schema.Steady := by
  simp only [Schema.Steady, schema, List.forall_mem_cons]
  exact ⟨Schema.steady_of Reader.steady_text _ _, Schema.steady_of Reader.steady_uint64 _ _,
    Schema.steady_of Config.steady_polarity _ _, Schema.steady_of Reader.steady_bool _ _, nofun⟩

theorem Flow.steady_schema : Flow.schema.Steady := by
  simp only [Schema.Steady, schema, List.forall_mem_cons]
  exact ⟨Schema.steady_of Reader.steady_uint64 _ _, Schema.steady_of Reader.steady_uint64 _ _,
    Schema.steady_of Reader.steady_uint64 _ _,
    Schema.steady_of DeviceEntry.steady_schema.record.list _ _, nofun⟩

theorem Section.steady_schema : Section.schema.Steady := by
  simp only [Schema.Steady, schema, List.forall_mem_cons]
  exact ⟨Schema.steady_of Reader.steady_text _ _,
    Schema.steady_of Flow.steady_schema.record _ _, nofun⟩

theorem DeviceEntry.whole_value (e : DeviceEntry) : e.value.Whole := by
  refine .object ?_
  simp only [List.forall_mem_cons]
  exact ⟨.text _, whole_ofNatural _, .text _, .bool _, nofun⟩

theorem Section.whole_value (a : Section) : a.value.Whole := by
  have hdevices : ∀ v ∈ a.flow.devices.map DeviceEntry.value, v.Whole :=
    List.forall_mem_map.mpr fun e _ => e.whole_value
  have hflow : a.flow.value.Whole := by
    refine .object ?_
    simp only [List.forall_mem_cons]
    exact ⟨whole_ofNatural _, whole_ofNatural _, whole_ofNatural _, .array hdevices, nofun⟩
  refine .object ?_
  simp only [List.forall_mem_cons]
  exact ⟨.text _, hflow, nofun⟩

end Project

/-! ## Decoding -/

/-- What it means that a configuration is read as it is stored. -/
structure Config.Decodes (c : Config) : Prop where
  /-- From an object that holds some of its members these are read, and what the object does not
  hold is as initially. -/
  value : ∀ present ms, c.HeldBy present ms →
    schema.record.ofValue (.object ms) = .ok (c.mix present initial)
  /-- The same is read from every text that writes such an object, in whatever layout. -/
  text : ∀ present ms text, c.HeldBy present ms → (Value.object ms).WrittenAs text →
    ofText text = .ok (c.mix present initial)
  /-- From the texts with all of its members the configuration is read. -/
  full : ofText c.value.compact = .ok c ∧ ofText c.value.pretty = .ok c

/-- What it means that the watering section of a project is read as it is stored. -/
structure Project.Section.Decodes (a : Section) : Prop where
  /-- The members of the stored section, of its flow and of its devices. -/
  format : a.value = .object [("mode", .text a.mode), ("flow", .object [
    ("activationTime", .ofNatural a.flow.activation),
    ("deactivationTime", .ofNatural a.flow.deactivation),
    ("deactivationSepTime", .ofNatural a.flow.separation),
    ("devices", .array (a.flow.devices.map fun e => .object [
      ("name", .text e.name), ("pinID", .ofNatural e.pin),
      ("activationState", .text e.polarity.label), ("enabled", .bool e.enabled)]))])]
  /-- The section is read from its value, also with the members in the order of their names. -/
  value : Section.ofValue a.value = .ok a ∧ Section.ofValue a.value.sorted = .ok a
  /-- It is read from every text that writes this value, in whatever layout. -/
  text : ∀ text, a.value.WrittenAs text ∨ a.value.sorted.WrittenAs text →
    Section.ofText text = .ok a
  /-- The texts that are written are among those. -/
  full : Section.ofText a.value.compact = .ok a ∧ Section.ofText a.value.pretty = .ok a

theorem Config.decodes (c : Config) : c.Decodes := by
  have hvalue : ∀ present ms, c.HeldBy present ms →
      schema.record.ofValue (.object ms) = .ok (c.mix present initial) :=
    fun _ _ h => Reader.ofValue_eq_ok.mpr h.record
  have htext : ∀ present ms text, c.HeldBy present ms → (Value.object ms).WrittenAs text →
      ofText text = .ok (c.mix present initial) := fun present ms _ h hwritten =>
    steady_schema.record.ofText (hvalue present ms h) (Value.holds_of_writtenAs hwritten)
  have hall : c.HeldBy (fun _ => true) c.members := List.Perm.refl _
  exact ⟨hvalue, htext, htext _ _ _ hall c.whole_value.writtenAs_compact,
    htext _ _ _ hall c.whole_value.writtenAs_pretty⟩

theorem Project.Section.decodes (a : Section) : a.Decodes := by
  have hvalue : Section.ofValue a.value = .ok a := Reader.ofValue_eq_ok.mpr a.read_value
  have htext : ∀ text, a.value.WrittenAs text ∨ a.value.sorted.WrittenAs text →
      Section.ofText text = .ok a := by
    rintro text (hwritten | hwritten)
    · exact steady_schema.record.ofText hvalue (Value.holds_of_writtenAs hwritten)
    · exact steady_schema.record.ofText a.ofValue_sorted (Value.holds_of_writtenAs hwritten)
  exact ⟨rfl, ⟨hvalue, a.ofValue_sorted⟩, htext, htext _ (.inl a.whole_value.writtenAs_compact),
    htext _ (.inl a.whole_value.writtenAs_pretty)⟩

/-- **Stored formats are read as they were written.** -/
theorem stored_formats_decode :
    (∀ c : Config, c.Decodes) ∧ ∀ a : Project.Section, a.Decodes :=
  ⟨Config.decodes, Project.Section.decodes⟩

example : Config.ofText "\x7b \"color\": [1.5], \"valve_pin\": 5, \"pump_enabled\": false \x7d" =
    .ok { Config.initial with valvePin := 5, pumpEnabled := false } := by
  decide

end Irrigation
