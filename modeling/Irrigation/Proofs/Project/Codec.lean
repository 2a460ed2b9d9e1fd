import Irrigation.Project.Section

/-!
# What is written can be read

A record is read back from the object that holds its members, one member after the other
(`readMembers_cons`), each by the reader of its field (`read_of`). From this the stored settings of
the watering system are read as they were written (`Section.ofValue_sorted`), also with the
members in the order of their names, as a document keeps them.
-/

namespace Irrigation

namespace Json

variable {α β : Type} {origin : Origin} {t : Tree} {a a' : α}

/-! ## Readers -/

theorem uint64_ofNatural (origin : Origin) (n : UInt64) :
    Reader.uint64 origin (Value.ofNatural n).tree = .ok n := by
  have h := n.toNat_lt_size
  change (Reader.natural "u64" UInt64.size origin
    (.number (.ok (.whole n.toNat)) .nowhere)).map _ = _
  rw [Reader.natural, if_pos (by omega)]
  simp [Except.map]

theorem sortedItems_map (write : α → Value) (as : List α) :
    Value.sortedItems (as.map write) = as.map fun a => (write a).sorted := by
  induction as with
  | nil => rfl
  | cons a rest ih => rw [List.map_cons, Value.sortedItems, ih, List.map_cons]

theorem items_itemTrees {reader : Reader α} {write : α → Value}
    (h : ∀ a, reader origin (write a).tree = .ok a) (as : List α) :
    Reader.items reader origin (Value.itemTrees (as.map write)) = .ok as := by
  induction as with
  | nil => rfl
  | cons a rest ih =>
    rw [List.map_cons, Value.itemTrees, Reader.items, h, ih]
    rfl

/-- A list is read item by item. -/
theorem list_array {reader : Reader α} {write : α → Value}
    (h : ∀ a, reader origin (write a).tree = .ok a) (as : List α) :
    Reader.list reader origin (Value.array (as.map write)).tree = .ok as := by
  rw [Value.tree, Reader.list, items_itemTrees h]
  rfl

/-! ## Records -/

theorem read_of {name : String} {reader : Reader β} {put : β → α → α} {b : β}
    (h : reader origin t = .ok b) (a : α) :
    (Field.of name reader put).read origin t a = .ok (put b a) := by
  change (reader origin t).map _ = _
  rw [h]
  rfl

/-- A member with the name of a field that was not met before is read into the record. -/
theorem readMembers_cons {s : Schema α} {k : String} {f : Field α} {seen : List String}
    {rest : List (Key × Tree)} {stop next : Spot}
    (hfind : s.fields.find? (fun f => f.name == k) = some f) (hnew : seen.contains k = false)
    (hread : f.read origin t a = .ok a') :
    s.readMembers origin ((⟨.ok k, stop, next⟩, t) :: rest) a seen =
      s.readMembers origin rest a' (k :: seen) := by
  have hname : (Except.ok k : Except Fault String).mapError Error.faulty = .ok k := rfl
  simp only [Schema.readMembers, hname, bind, Except.bind, hfind, hnew, hread]
  rfl

/-- An object in which every field was met gives the record. -/
theorem record_object {s : Schema α} {ms : Members} (seen : List String)
    (hread : s.readMembers origin (Value.memberTrees ms) s.start [] = .ok (a, seen))
    (hall : s.fields.find? (fun f => !seen.contains f.name) = none) :
    s.record origin (Value.object ms).tree = .ok a := by
  simp only [Value.tree, Schema.record, bind, Except.bind, hread, hall]

end Json

namespace Project

open Json

theorem read_polarity (p : Polarity) : Polarity.reader .value p.value.tree = .ok p := by
  cases p <;> rfl

/-! ## The watering section -/

theorem DeviceEntry.sorted_value (e : DeviceEntry) : e.value.sorted =
    .object [("activationState", e.polarity.value), ("enabled", .bool e.enabled),
      ("name", .text e.name), ("pinID", .ofNatural e.pin)] := by
  simp only [DeviceEntry.value, Polarity.value, Value.ofNatural, Value.sorted,
    Value.sortedMembers, Members.ofList, Members.insert, List.foldl_cons, List.foldl_nil,
    String.reduceEq, String.reduceLT, if_true, if_false]

theorem DeviceEntry.read_sorted (e : DeviceEntry) :
    DeviceEntry.schema.record .value e.value.sorted.tree = .ok e := by
  rw [sorted_value]
  refine record_object ["pinID", "name", "enabled", "activationState"] ?_ rfl
  simp only [Value.memberTrees]
  rw [readMembers_cons rfl rfl (read_of (read_polarity e.polarity) _),
    readMembers_cons rfl rfl (read_of (b := e.enabled) rfl _),
    readMembers_cons rfl rfl (read_of (b := e.name) rfl _),
    readMembers_cons rfl rfl (read_of (uint64_ofNatural .value e.pin) _)]
  rfl

theorem Flow.sorted_value (f : Flow) : f.value.sorted =
    .object [("activationTime", .ofNatural f.activation),
      ("deactivationSepTime", .ofNatural f.separation),
      ("deactivationTime", .ofNatural f.deactivation),
      (devicesKey, .array (f.devices.map fun e => e.value.sorted))] := by
  simp only [Flow.value, devicesKey, Value.ofNatural, Value.sorted, Value.sortedMembers,
    sortedItems_map, Members.ofList, Members.insert, List.foldl_cons, List.foldl_nil,
    String.reduceEq, String.reduceLT, if_true, if_false]

theorem Flow.read_sorted (f : Flow) : Flow.schema.record .value f.value.sorted.tree = .ok f := by
  rw [sorted_value]
  refine record_object
    [devicesKey, "deactivationTime", "deactivationSepTime", "activationTime"] ?_ rfl
  simp only [Value.memberTrees]
  rw [readMembers_cons rfl rfl (read_of (uint64_ofNatural .value f.activation) _),
    readMembers_cons rfl rfl (read_of (uint64_ofNatural .value f.separation) _),
    readMembers_cons rfl rfl (read_of (uint64_ofNatural .value f.deactivation) _),
    readMembers_cons rfl rfl (read_of (list_array DeviceEntry.read_sorted f.devices) _)]
  rfl

theorem Section.sorted_value (a : Section) : a.value.sorted =
    .object [(flowKey, a.flow.value.sorted), ("mode", .text a.mode)] := by
  simp only [Section.value, flowKey, Value.sorted, Value.sortedMembers, Members.ofList,
    Members.insert, List.foldl_cons, List.foldl_nil, String.reduceEq, String.reduceLT, if_true,
    if_false]

/-- **The stored settings are read as they were written.** -/
theorem Section.ofValue_sorted (a : Section) : Section.ofValue a.value.sorted = .ok a := by
  have hread : Section.schema.record .value a.value.sorted.tree = .ok a := by
    rw [sorted_value]
    refine record_object ["mode", flowKey] ?_ rfl
    simp only [Value.memberTrees]
    rw [readMembers_cons rfl rfl (read_of a.flow.read_sorted _),
      readMembers_cons rfl rfl (read_of (b := a.mode) rfl _)]
    rfl
  unfold Section.ofValue Reader.ofValue
  rw [hread]
  rfl

end Project

end Irrigation
