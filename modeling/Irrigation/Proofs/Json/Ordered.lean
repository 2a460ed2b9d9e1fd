import Irrigation.Json.Tree
import Mathlib.Data.String.Basic

/-!
# Members in order

The members of every object that is read from a text are in the order of their names, with no name
twice (`Value.InOrder`), and stay so when members are set and removed. In an object of that kind a
member is there exactly if it is found.
-/

namespace Irrigation.Json

namespace Members

variable {ms : Members} {name : String} {value : Value}

/-- The names rise, so that none is there twice. -/
def InOrder (ms : Members) : Prop := (ms.map Prod.fst).Pairwise (· < ·)

instance (ms : Members) : Decidable ms.InOrder := inferInstanceAs (Decidable (List.Pairwise ..))

theorem inOrder_nil : InOrder [] := List.Pairwise.nil

theorem InOrder.nodup (h : ms.InOrder) : (ms.map Prod.fst).Nodup :=
  List.Pairwise.imp (fun hlt => ne_of_lt hlt) h

theorem mem_of_find? (h : ms.find? name = some value) : (name, value) ∈ ms := by
  induction ms with
  | nil => cases h
  | cons m rest ih =>
    obtain ⟨k, v⟩ := m
    rw [find?] at h
    split at h
    · next hk =>
      obtain rfl := Option.some.inj h
      exact hk ▸ List.mem_cons_self
    · exact List.mem_cons_of_mem _ (ih h)

theorem find?_of_mem (hnames : (ms.map Prod.fst).Nodup) (h : (name, value) ∈ ms) :
    ms.find? name = some value := by
  induction ms with
  | nil => cases h
  | cons m rest ih =>
    obtain ⟨k, v⟩ := m
    rw [List.map_cons, List.nodup_cons] at hnames
    rcases List.mem_cons.mp h with heq | hrest
    · obtain ⟨rfl, rfl⟩ := Prod.mk.inj heq
      rw [find?, if_pos rfl]
    · have hk : k ≠ name := by
        rintro rfl
        exact hnames.1 (List.mem_map.mpr ⟨_, hrest, rfl⟩)
      rw [find?, if_neg hk, ih hnames.2 hrest]

theorem mem_insert {m : String × Value} (h : m ∈ ms.insert name value) :
    m = (name, value) ∨ m ∈ ms := by
  induction ms with
  | nil => exact .inl (List.mem_singleton.mp h)
  | cons first rest ih =>
    rw [insert] at h
    split at h
    · rcases List.mem_cons.mp h with rfl | hrest
      · exact .inl rfl
      · exact .inr (List.mem_cons_of_mem _ hrest)
    · split at h
      · exact (List.mem_cons.mp h)
      · rcases List.mem_cons.mp h with rfl | hrest
        · exact .inr List.mem_cons_self
        · exact (ih hrest).imp id (List.mem_cons_of_mem _)

theorem InOrder.insert (h : ms.InOrder) (name : String) (value : Value) :
    (ms.insert name value).InOrder := by
  induction ms with
  | nil => exact List.pairwise_singleton ..
  | cons first rest ih =>
    obtain ⟨k, v⟩ := first
    have hrest := List.pairwise_cons.mp h
    rw [Members.insert]
    split
    · next hk =>
      subst hk
      exact h
    · next hk =>
      split
      · next hlt =>
        refine List.pairwise_cons.mpr ⟨fun n hn => ?_, h⟩
        rcases List.mem_cons.mp hn with rfl | hn
        · exact hlt
        · exact hlt.trans (hrest.1 n hn)
      · next hge =>
        refine List.pairwise_cons.mpr ⟨fun n hn => ?_, ih hrest.2⟩
        obtain ⟨m, hm, rfl⟩ := List.mem_map.mp hn
        rcases mem_insert hm with rfl | hm
        · exact lt_of_le_of_ne (not_lt.mp hge) hk
        · exact hrest.1 _ (List.mem_map_of_mem hm)

theorem InOrder.erase (h : ms.InOrder) (name : String) : (ms.erase name).InOrder :=
  List.Pairwise.sublist (List.Sublist.map _ List.filter_sublist) h

end Members

/-! ## Values -/

namespace Value

mutual

/-- The members of every object in a value are in order. -/
def InOrder : Value → Prop
  | .array items => ItemsInOrder items
  | .object members => Members.InOrder members ∧ MembersInOrder members
  | _ => True

/-- Every item is in order. -/
def ItemsInOrder : List Value → Prop
  | [] => True
  | v :: rest => v.InOrder ∧ ItemsInOrder rest

/-- The value of every member is in order. -/
def MembersInOrder : List (String × Value) → Prop
  | [] => True
  | (_, v) :: rest => v.InOrder ∧ MembersInOrder rest

end

theorem membersInOrder_iff {ms : Members} : MembersInOrder ms ↔ ∀ m ∈ ms, m.2.InOrder := by
  induction ms with
  | nil => simp [MembersInOrder]
  | cons m rest ih => simp [MembersInOrder, ih]

/-- What is found in an object is in order. -/
theorem InOrder.find? {ms : Members} {name : String} {v : Value} (h : (object ms).InOrder)
    (hv : ms.find? name = some v) : v.InOrder :=
  membersInOrder_iff.mp h.2 _ (Members.mem_of_find? hv)

/-- A member that is set is in order if its value is. -/
theorem InOrder.insert {ms : Members} {name : String} {v : Value} (h : (object ms).InOrder)
    (hv : v.InOrder) : (object (ms.insert name v)).InOrder := by
  refine ⟨Members.InOrder.insert h.1 name v, membersInOrder_iff.mpr fun m hm => ?_⟩
  rcases Members.mem_insert hm with rfl | hm
  · exact hv
  · exact membersInOrder_iff.mp h.2 m hm

end Value

/-! ## What is read is in order -/

namespace Tree

open Value

mutual

theorem inOrder_value : (t : Tree) → {depth : Nat} → {v : Value} → t.value depth = .ok v →
    v.InOrder
  | .null _, _, _, h => by cases h; trivial
  | .bool .., _, _, h => by cases h; trivial
  | .number n _, _, _, h => by
    cases n <;> cases h
    trivial
  | .text s _, _, _, h => by
    cases s <;> cases h
    trivial
  | .array items _ closing, depth, v, h => by
    rw [value] at h
    split at h
    · cases h
    · cases hitems : itemValues (depth + 1) items with
      | error f =>
        rw [hitems] at h
        cases h
      | ok vs =>
        simp only [hitems, bind, Except.bind] at h
        split at h <;> cases h
        exact itemsInOrder_itemValues items hitems
  | .object members _ closing, depth, v, h => by
    rw [value] at h
    split at h
    · cases h
    · cases hmembers : memberValues (depth + 1) [] members with
      | error f =>
        rw [hmembers] at h
        cases h
      | ok ms =>
        simp only [hmembers, bind, Except.bind] at h
        split at h <;> cases h
        exact inOrder_memberValues members ⟨Members.inOrder_nil, trivial⟩ hmembers
  | .brokenWord _, _, _, h => by cases h
  | .missing _, _, _, h => by cases h

theorem itemsInOrder_itemValues : (ts : List Tree) → {depth : Nat} → {vs : List Value} →
    itemValues depth ts = .ok vs → ItemsInOrder vs
  | [], _, _, h => by cases h; trivial
  | t :: rest, depth, vs, h => by
    rw [itemValues] at h
    cases hv : t.value depth with
    | error f =>
      rw [hv] at h
      cases h
    | ok v =>
      cases hrest : itemValues depth rest with
      | error f =>
        rw [hv, hrest] at h
        cases h
      | ok vs' =>
        rw [hv, hrest] at h
        cases h
        exact ⟨inOrder_value t hv, itemsInOrder_itemValues rest hrest⟩

theorem inOrder_memberValues : (ts : List (Key × Tree)) → {depth : Nat} →
    {before ms : Members} → (Value.object before).InOrder →
    memberValues depth before ts = .ok ms → (Value.object ms).InOrder
  | [], _, _, _, hbefore, h => by cases h; exact hbefore
  | (key, t) :: rest, depth, before, ms, hbefore, h => by
    rw [memberValues] at h
    cases hkey : key.name with
    | error f =>
      rw [hkey] at h
      cases h
    | ok name =>
      cases hv : t.value depth with
      | error f =>
        rw [hkey, hv] at h
        cases h
      | ok v =>
        rw [hkey, hv] at h
        exact inOrder_memberValues rest (hbefore.insert (inOrder_value t hv)) h

end

end Tree

/-- **What is read from a text is in order.** -/
theorem Value.inOrder_of_read {text : String} {v : Value} (h : Value.read text = .ok v) :
    v.InOrder := by
  rw [Value.read, Document.value] at h
  cases hroot : (Document.read text).root.value 0 with
  | error f =>
    rw [hroot] at h
    cases h
  | ok root =>
    simp only [hroot, bind, Except.bind] at h
    split at h <;> cases h
    exact Tree.inOrder_value _ hroot

end Irrigation.Json
