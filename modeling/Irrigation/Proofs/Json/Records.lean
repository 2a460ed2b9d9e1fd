import Irrigation.Proofs.Json.Ordered
import Irrigation.Proofs.Project.Codec

/-!
# Records in any order

A record is read from an object whatever the order of its members, and members with other names
are skipped. What counts is that each field is found and can be read. To say what comes out, one
gives for each name what it means that a record has the right value there; reading a field sees to
that for its own name and leaves the other names alone (`Schema.Reads`).
-/

namespace Irrigation.Json.Schema

variable {α : Type} {s : Schema α} {origin : Origin} {ms : Members} {good : String → α → Prop}

/-- The field of a name. -/
def field? (s : Schema α) (name : String) : Option (Field α) :=
  s.fields.find? fun f => f.name == name

theorem name_of_field? {name : String} {f : Field α} (h : s.field? name = some f) :
    f.name = name :=
  beq_iff_eq.mp (List.find?_some (p := fun f : Field α => f.name == name) h)

theorem isSome_field? (name : String) :
    (s.field? name).isSome = (s.fields.map Field.name).contains name := by
  rw [Bool.eq_iff_iff, field?, List.find?_isSome, List.contains_iff_mem, List.mem_map]
  simp only [beq_iff_eq]

/-- Reading a field from a value makes the record right for the name of the field, and leaves it
right for any other name. -/
def Reads (origin : Origin) (good : String → α → Prop) (f : Field α) (v : Value) : Prop :=
  ∀ a, ∃ a', f.read origin v.tree a = .ok a' ∧ good f.name a' ∧ ∀ name, good name a → good name a'

theorem reads_of {β : Type} {name : String} {reader : Reader β} {put : β → α → α} {b : β}
    {v : Value} (hread : reader origin v.tree = .ok b) (hput : ∀ a, good name (put b a))
    (hkeep : ∀ a other, good other a → good other (put b a)) :
    Reads origin good (.of name reader put) v :=
  fun a => ⟨put b a, read_of hread a, hput a, hkeep a⟩

/-- A member of another name is skipped. -/
theorem readMembers_skip {k : String} {t : Tree} {stop next : Spot} {rest : List (Key × Tree)}
    {a : α} {seen : List String} (hfield : s.field? k = none) :
    s.readMembers origin ((⟨.ok k, stop, next⟩, t) :: rest) a seen =
      s.readMembers origin rest a seen := by
  have hname : (Except.ok k : Except Fault String).mapError Error.faulty = .ok k := rfl
  have hfind : (s.fields.find? fun f => f.name == k) = none := hfield
  simp only [readMembers, hname, bind, Except.bind, hfind]

/-- The members with the name of a field. -/
def known (s : Schema α) (ms : Members) : Members := ms.filter fun m => (s.field? m.1).isSome

/-- Where reading the value under a name is a step that depends on the name alone, reading members
is taking the steps of those that have the name of a field, one after the other. -/
theorem readMembers_known {step : String → α → α}
    (hnames : ((s.known ms).map Prod.fst).Nodup)
    (hread : ∀ m ∈ ms, ∀ f, s.field? m.1 = some f →
      ∀ a, f.read origin m.2.tree a = .ok (step m.1 a))
    (a : α) (seen : List String) (hnew : ∀ m ∈ s.known ms, m.1 ∉ seen) :
    ∃ seen', s.readMembers origin (Value.memberTrees ms) a seen =
      .ok (((s.known ms).map Prod.fst).foldl (fun a name => step name a) a, seen') := by
  induction ms generalizing a seen with
  | nil => exact ⟨seen, rfl⟩
  | cons m rest ih =>
    obtain ⟨k, v⟩ := m
    have ih := fun hnames => ih hnames fun m hm => hread m (List.mem_cons_of_mem _ hm)
    rw [Value.memberTrees]
    cases hf : s.field? k with
    | none =>
      have hknown : s.known ((k, v) :: rest) = s.known rest :=
        List.filter_cons_of_neg (by simp [hf])
      rw [hknown] at hnames hnew ⊢
      rw [readMembers_skip hf]
      exact ih hnames a seen hnew
    | some f =>
      have hknown : s.known ((k, v) :: rest) = (k, v) :: s.known rest :=
        List.filter_cons_of_pos (by simp [hf])
      rw [hknown] at hnames hnew ⊢
      rw [List.map_cons, List.nodup_cons] at hnames
      obtain ⟨hk, hnewRest⟩ := List.forall_mem_cons.mp hnew
      obtain ⟨seen', hrest⟩ := ih hnames.2 (step k a) (k :: seen) fun m hm hmem => by
        rcases List.mem_cons.mp hmem with hmk | hmem
        · exact hnames.1 (List.mem_map.mpr ⟨m, hm, hmk⟩)
        · exact hnewRest m hm hmem
      have hfirst := hread (k, v) List.mem_cons_self f hf a
      exact ⟨seen', (readMembers_cons hf (by simpa using hk) hfirst).trans hrest⟩

/-- **A record with defaults is read from what is there**, whatever the order; what is not there
stays as it is at the start, and what has no field is skipped. -/
theorem record_of_known (step : String → α → α) (hdefaults : s.defaults = true)
    (hnames : ((s.known ms).map Prod.fst).Nodup)
    (hread : ∀ m ∈ ms, ∀ f, s.field? m.1 = some f →
      ∀ a, f.read origin m.2.tree a = .ok (step m.1 a)) :
    s.record origin (Value.object ms).tree =
      .ok (((s.known ms).map Prod.fst).foldl (fun a name => step name a) s.start) := by
  obtain ⟨seen, hmembers⟩ := readMembers_known hnames hread s.start [] (by simp)
  simp only [Value.tree, record, bind, Except.bind, hmembers, hdefaults, if_true]
  split <;> rfl

/-- What is met is read, and what is not met stays as it is. -/
theorem exists_readMembers (hnames : (ms.map Prod.fst).Nodup)
    (hread : ∀ m ∈ ms, ∀ f, s.field? m.1 = some f → Reads origin good f m.2) :
    ∀ (a : α) (seen : List String), (∀ m ∈ ms, m.1 ∉ seen) →
    ∃ a' seen', s.readMembers origin (Value.memberTrees ms) a seen = .ok (a', seen') ∧
      (∀ name, good name a → good name a') ∧
      (∀ name ∈ seen, name ∈ seen') ∧
      ∀ m ∈ ms, (s.field? m.1).isSome → m.1 ∈ seen' ∧ good m.1 a' := by
  induction ms with
  | nil =>
    intro a seen _
    exact ⟨a, seen, rfl, fun _ h => h, fun _ h => h, nofun⟩
  | cons m rest ih =>
    intro a seen hnew
    obtain ⟨k, v⟩ := m
    rw [List.map_cons, List.nodup_cons] at hnames
    have ih := ih hnames.2 fun m hm => hread m (List.mem_cons_of_mem _ hm)
    have hnewRest : ∀ m ∈ rest, m.1 ∉ seen := fun m hm => hnew m (List.mem_cons_of_mem _ hm)
    rw [Value.memberTrees]
    cases hf : s.field? k with
    | none =>
      obtain ⟨a', seen', hrest, hkept, hseen, hmet⟩ := ih a seen hnewRest
      refine ⟨a', seen', (readMembers_skip hf).trans hrest, hkept, hseen, fun m hm hsome => ?_⟩
      rcases List.mem_cons.mp hm with rfl | hm
      · rw [hf] at hsome
        cases hsome
      · exact hmet m hm hsome
    | some f =>
      obtain ⟨a₁, hread₁, hgood₁, hkept₁⟩ := hread (k, v) List.mem_cons_self f hf a
      rw [name_of_field? hf] at hgood₁
      have hk : k ∉ seen := hnew (k, v) List.mem_cons_self
      have hnewRest₁ : ∀ m ∈ rest, m.1 ∉ k :: seen := by
        intro m hm hmem
        rcases List.mem_cons.mp hmem with hmk | hmem
        · exact hnames.1 (List.mem_map.mpr ⟨m, hm, hmk⟩)
        · exact hnewRest m hm hmem
      obtain ⟨a', seen', hrest, hkept, hseen, hmet⟩ := ih a₁ (k :: seen) hnewRest₁
      refine ⟨a', seen', ?_, fun name h => hkept name (hkept₁ name h),
        fun name h => hseen name (List.mem_cons_of_mem _ h), fun m hm hsome => ?_⟩
      · exact (readMembers_cons hf (by simpa using hk) hread₁).trans hrest
      · rcases List.mem_cons.mp hm with rfl | hm
        · exact ⟨hseen k List.mem_cons_self, hkept k hgood₁⟩
        · exact hmet m hm hsome

/-- **A record is read from an object in which each of its fields is found.** -/
theorem record_of_fields (hnames : (ms.map Prod.fst).Nodup)
    (hfields : ∀ f ∈ s.fields, s.field? f.name = some f ∧
      ∃ v, ms.find? f.name = some v ∧ Reads origin good f v) :
    ∃ a, s.record origin (Value.object ms).tree = .ok a ∧ ∀ f ∈ s.fields, good f.name a := by
  have hread : ∀ m ∈ ms, ∀ f, s.field? m.1 = some f → Reads origin good f m.2 := by
    intro m hm f hf
    obtain ⟨-, v, hv, hreads⟩ := hfields f (List.mem_of_find?_eq_some hf)
    rw [name_of_field? hf, Members.find?_of_mem hnames hm] at hv
    exact Option.some.inj hv ▸ hreads
  obtain ⟨a, seen, hmembers, -, -, hmet⟩ := exists_readMembers hnames hread s.start [] (by simp)
  have hgood : ∀ f ∈ s.fields, f.name ∈ seen ∧ good f.name a := by
    intro f hf
    obtain ⟨hfield, v, hv, -⟩ := hfields f hf
    exact hmet _ (Members.mem_of_find? hv) (by rw [hfield]; rfl)
  refine ⟨a, record_object seen hmembers ?_, fun f hf => (hgood f hf).2⟩
  rw [List.find?_eq_none]
  intro f hf
  simpa using (hgood f hf).1

end Irrigation.Json.Schema
