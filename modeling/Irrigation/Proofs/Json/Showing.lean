import Irrigation.Proofs.Json.Records
import Irrigation.Proofs.Results

/-!
# Trees that show a value

A text and a value give trees that differ only in the places of their parts. A tree shows a value if
it is the tree of the value up to places (`Tree.Shows`). A reader is steady if it reads from every
tree that shows a value what it reads from the value itself (`Reader.Steady`). The readers of texts,
truth values, numbers and choices are steady, and so are those of lists and records with steady
parts; so what is read from a value is read from every text that holds it
(`Reader.Steady.ofText`).
-/

namespace Irrigation.Json

mutual

/-- A tree is that of a value, up to the places in it. -/
inductive Tree.Shows : Tree → Value → Prop
  | null (stop : Spot) : Shows (.null stop) .null
  | bool (b : Bool) (stop : Spot) : Shows (.bool b stop) (.bool b)
  | number (n : Number) (stop : Spot) : Shows (.number (.ok n) stop) (.number n)
  | text (s : String) (stop : Spot) : Shows (.text (.ok s) stop) (.text s)
  | array {ts : List Tree} {vs : List Value} (start stop : Spot) (h : Tree.ShowItems ts vs) :
    Shows (.array ts start (.closed stop)) (.array vs)
  | object {ts : List (Key × Tree)} {ms : Members} (start stop : Spot)
    (h : Tree.ShowMembers ts ms) : Shows (.object ts start (.closed stop)) (.object ms)

/-- Trees are those of some values. -/
inductive Tree.ShowItems : List Tree → List Value → Prop
  | nil : ShowItems [] []
  | cons {t : Tree} {v : Value} {ts : List Tree} {vs : List Value} (h : Tree.Shows t v)
    (hrest : Tree.ShowItems ts vs) : ShowItems (t :: ts) (v :: vs)

/-- Trees under names are those of some members. -/
inductive Tree.ShowMembers : List (Key × Tree) → Members → Prop
  | nil : ShowMembers [] []
  | cons {k : String} {t : Tree} {v : Value} {ts : List (Key × Tree)} {ms : Members}
    (stop next : Spot) (h : Tree.Shows t v) (hrest : Tree.ShowMembers ts ms) :
    ShowMembers ((⟨.ok k, stop, next⟩, t) :: ts) ((k, v) :: ms)

end

/-- A text holds a value and nothing else. -/
def Holds (text : String) (v : Value) : Prop :=
  ∃ t : Tree, Document.read text = ⟨t, none⟩ ∧ t.Shows v

variable {α β : Type}

/-- What is read from a value is read from every tree that shows it. -/
def Reader.Steady (reader : Reader α) : Prop :=
  ∀ ⦃t : Tree⦄ ⦃v : Value⦄ ⦃a : α⦄, t.Shows v → reader .value v.tree = .ok a →
    ∀ origin, reader origin t = .ok a

namespace Reader

variable {reader : Reader α} {origin : Origin} {a : α} {v : Value}

theorem ofValue_eq_ok : reader.ofValue v = .ok a ↔ reader .value v.tree = .ok a := by
  rw [Reader.ofValue]
  cases reader .value v.tree with
  | error e => exact ⟨nofun, nofun⟩
  | ok a' => exact Iff.rfl

/-- **What is read from a value is read from every text that holds it.** -/
theorem Steady.ofText (hsteady : reader.Steady) (hread : reader.ofValue v = .ok a)
    {text : String} (htext : Holds text v) : reader.ofText text = .ok a := by
  obtain ⟨t, hdocument, hshows⟩ := htext
  have htree := hsteady hshows (ofValue_eq_ok.mp hread) .text
  simp only [Reader.ofText, hdocument, htree, bind, Except.bind]

theorem Steady.map (hsteady : reader.Steady) (f : α → β) :
    Steady fun origin t => (reader origin t).map f := by
  intro t v b hshows hread origin
  obtain ⟨a, ha, rfl⟩ := exists_of_map_eq_ok hread
  exact congrArg (Except.map f) (hsteady hshows ha origin)

/-! ## Scalars and choices -/

theorem steady_text : Steady text := by
  intro t v s hshows hread origin
  cases hshows <;> first | exact hread | cases hread

theorem steady_bool : Steady bool := by
  intro t v b hshows hread origin
  cases hshows <;> first | exact hread | cases hread

theorem steady_nothing : Steady nothing := by
  intro t v u hshows hread origin
  cases hshows <;> first | exact hread | cases hread

theorem steady_natural (name : String) (bound : Nat) : Steady (natural name bound) := by
  intro t v n hshows hread origin
  cases hshows with
  | number number stop =>
    cases number with
    | whole i =>
      simp only [Value.tree, natural] at hread ⊢
      split at hread
      · next hbound => rw [if_pos hbound, ← hread]
      · cases hread
    | real x => cases hread
  | _ => cases hread

theorem steady_uint32 : Steady uint32 := (steady_natural _ _).map _

theorem steady_uint64 : Steady uint64 := (steady_natural _ _).map _

theorem named_ok {choices : List (String × α)} {name : String} {spot : Spot}
    (h : named choices name spot = .ok a) (other : Spot) : named choices name other = .ok a := by
  unfold named at h ⊢
  split at h
  · exact h
  · cases h

theorem steady_choice (choices : List (String × α)) : Steady (choice choices) := by
  intro t v a hshows hread origin
  cases hshows with
  | text s stop => exact named_ok hread stop
  | object start stop h =>
    cases h with
    | nil => cases hread
    | cons nameStop next h hrest =>
      cases hrest with
      | cons => cases hread
      | nil =>
        obtain ⟨a', ha', hread⟩ := exists_of_bind_eq_ok hread
        obtain ⟨u, hnothing, hread⟩ := exists_of_bind_eq_ok hread
        have hname := named_ok ha' nameStop
        have hcontent := steady_nothing h hnothing
        cases origin <;>
          simp only [choice, Except.mapError, hname, hcontent, bind, Except.bind, hread]
  | _ => cases hread

/-! ## Lists -/

theorem Steady.items (hsteady : reader.Steady) {ts : List Tree} {vs : List Value} {as : List α}
    (hshow : Tree.ShowItems ts vs) (hread : items reader .value (Value.itemTrees vs) = .ok as) :
    items reader origin ts = .ok as := by
  induction vs generalizing ts as with
  | nil =>
    cases hshow
    exact hread
  | cons v vs ih =>
    cases hshow with
    | cons h hrest =>
      obtain ⟨a, ha, hread⟩ := exists_of_bind_eq_ok hread
      obtain ⟨more, hmore, hread⟩ := exists_of_bind_eq_ok hread
      rw [Reader.items, hsteady h ha origin, ih hrest hmore]
      exact hread

theorem Steady.list (hsteady : reader.Steady) : Steady (list reader) := by
  intro t v as hshows hread origin
  cases hshows with
  | array start stop h =>
    obtain ⟨as', has, hread⟩ := exists_of_bind_eq_ok hread
    rw [Reader.list, hsteady.items h has]
    exact hread
  | _ => cases hread

end Reader

/-! ## Records -/

/-- Each field of a record is read from every tree that shows a value as from the value. -/
def Schema.Steady (s : Schema α) : Prop :=
  ∀ f ∈ s.fields, ∀ ⦃t : Tree⦄ ⦃v : Value⦄ ⦃a a' : α⦄, t.Shows v →
    f.read .value v.tree a = .ok a' → ∀ origin, f.read origin t a = .ok a'

namespace Schema

variable {s : Schema α} {origin : Origin} {a : α}

theorem steady_of {reader : Reader β} (hsteady : reader.Steady) (name : String)
    (put : β → α → α) ⦃t : Tree⦄ ⦃v : Value⦄ ⦃a a' : α⦄ (hshows : t.Shows v)
    (hread : (Field.of name reader put).read .value v.tree a = .ok a') (origin : Origin) :
    (Field.of name reader put).read origin t a = .ok a' := by
  obtain ⟨b, hb, rfl⟩ := exists_of_map_eq_ok hread
  exact congrArg (Except.map fun b => put b a) (hsteady hshows hb origin)

/-- The two ways in which a member can be passed. -/
theorem readMembers_ok {k : String} {t : Tree} {stop next : Spot} {rest : List (Key × Tree)}
    {seen : List String} {result : α × List String}
    (h : s.readMembers origin ((⟨.ok k, stop, next⟩, t) :: rest) a seen = .ok result) :
    (s.field? k = none ∧ s.readMembers origin rest a seen = .ok result) ∨
      ∃ f a', s.field? k = some f ∧ seen.contains k = false ∧ f.read origin t a = .ok a' ∧
        s.readMembers origin rest a' (k :: seen) = .ok result := by
  cases hfield : s.field? k with
  | none => exact .inl ⟨rfl, (readMembers_skip hfield).symm.trans h⟩
  | some f =>
    have hname : (Except.ok k : Except Fault String).mapError Error.faulty = .ok k := rfl
    have hfind : (s.fields.find? fun f => f.name == k) = some f := hfield
    have hpassed : (if seen.contains k then .error (.data s!"duplicate field `{k}`" (some next))
        else (f.read origin t a).bind fun a => s.readMembers origin rest a (k :: seen)) =
        .ok result := by
      simpa only [Schema.readMembers, hname, bind, Except.bind, hfind] using h
    split at hpassed
    · cases hpassed
    · next hnew =>
      obtain ⟨a', ha', hrest⟩ := exists_of_bind_eq_ok hpassed
      exact .inr ⟨f, a', rfl, by simpa using hnew, ha', hrest⟩

theorem Steady.readMembers (hsteady : s.Steady) (origin : Origin) {ts : List (Key × Tree)}
    {ms : Members} {seen : List String} {result : α × List String} (hshow : Tree.ShowMembers ts ms)
    (hread : s.readMembers .value (Value.memberTrees ms) a seen = .ok result) :
    s.readMembers origin ts a seen = .ok result := by
  induction ms generalizing ts a seen with
  | nil =>
    cases hshow
    exact hread
  | cons m ms ih =>
    cases hshow with
    | cons stop next h hrest =>
      rcases readMembers_ok hread with ⟨hfield, hread⟩ | ⟨f, a₁, hfield, hnew, ha₁, hread⟩
      · rw [readMembers_skip hfield]
        exact ih hrest hread
      · have hread₁ := hsteady f (List.mem_of_find?_eq_some hfield) h ha₁ origin
        rw [readMembers_cons hfield hnew hread₁]
        exact ih hrest hread

theorem Steady.readItems (hsteady : s.Steady) (origin : Origin) {ts : List Tree} {vs : List Value}
    {fields : List (Field α)} (hfields : ∀ f ∈ fields, f ∈ s.fields)
    {pastEnd other : Except Error Unit} (hend : ∀ u, pastEnd = .ok u → other = .ok u)
    {a' : α} {more : List Tree} (hshow : Tree.ShowItems ts vs)
    (hread : Schema.readItems .value pastEnd fields (Value.itemTrees vs) a = .ok (a', more)) :
    ∃ more', Schema.readItems origin other fields ts a = .ok (a', more') ∧
      (more = [] → more' = []) := by
  induction fields generalizing ts vs a with
  | nil =>
    obtain ⟨rfl, rfl⟩ := Prod.mk.inj (Except.ok.inj hread)
    refine ⟨ts, rfl, fun hnil => ?_⟩
    cases hshow with
    | nil => rfl
    | cons => cases hnil
  | cons f fields ih =>
    cases hshow with
    | nil =>
      obtain ⟨u, hu, heq⟩ := exists_of_map_eq_ok hread
      obtain ⟨rfl, rfl⟩ := Prod.mk.inj heq
      exact ⟨[], congrArg (Except.map fun _ => (a, [])) (hend u hu), fun _ => rfl⟩
    | cons h hrest =>
      obtain ⟨a₁, ha₁, hread⟩ := exists_of_bind_eq_ok hread
      obtain ⟨more', hmore, hnil⟩ :=
        ih (fun f hf => hfields f (List.mem_cons_of_mem _ hf)) hrest hread
      refine ⟨more', ?_, hnil⟩
      rw [Schema.readItems, hsteady f (hfields f List.mem_cons_self) h ha₁ origin]
      exact hmore

/-- **A record with steady fields is read steadily.** -/
theorem Steady.record (hsteady : s.Steady) : s.record.Steady := by
  intro t v a hshows hread origin
  cases hshows with
  | object start stop h =>
    obtain ⟨⟨a', seen⟩, hmembers, hread⟩ := exists_of_bind_eq_ok hread
    have hmembers' := hsteady.readMembers origin h hmembers
    simp only [Schema.record, hmembers', bind, Except.bind]
    simp only at hread
    split at hread
    · split at hread
      · next hdefaults => simp only [if_pos hdefaults, hread]
      · cases hread
    · exact hread
  | @array ts vs start stop h =>
    obtain ⟨⟨a', more⟩, hitems, hread⟩ := exists_of_bind_eq_ok hread
    have hend : ∀ u, (if s.defaults = true then Except.ok ()
        else .error (s.tooShort (Value.itemTrees vs).length .nowhere)) = .ok u →
        (if s.defaults = true then Except.ok () else .error (s.tooShort ts.length stop)) =
          .ok u := by
      intro u hu
      split at hu
      · next hdefaults => exact (if_pos hdefaults).trans hu
      · cases hu
    obtain ⟨more', hitems', hnil⟩ :=
      hsteady.readItems origin (fun _ hf => hf) hend h hitems
    simp only [Schema.record, hitems', bind, Except.bind]
    cases more with
    | nil =>
      rw [hnil rfl]
      exact hread
    | cons => cases hread
  | _ => cases hread

end Schema

end Irrigation.Json
