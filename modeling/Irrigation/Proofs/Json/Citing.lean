import Irrigation.Json.Decode
import Irrigation.Proofs.Results
import Irrigation.Proofs.Text.Breaks

/-!
# What the errors of readers cite

Whatever a document holds, the message of an error of a reader is one line, with one exception: the
name of a choice that there is none of is cited as it stands (`Error.Cites`). A text of the wrong
type is shown for inspection, and numbers and the names of fields are one line anyway. This holds of
the readers of texts, truth values, numbers and choices, and of lists and records whose parts it
holds of (`Reader.Cites.list`, `Schema.Cites.record`).
-/

namespace Irrigation.Json

open Text (OneLine breaks)

/-! ## Texts of a tree -/

namespace Tree

mutual

/-- The texts of a tree, and the names of its members. -/
def texts : Tree → List String
  | .text (.ok s) _ => [s]
  | .array items _ _ => itemTexts items
  | .object members _ _ => memberTexts members
  | _ => []

/-- The texts of items. -/
def itemTexts : List Tree → List String
  | [] => []
  | t :: rest => t.texts ++ itemTexts rest

/-- The texts of members. -/
def memberTexts : List (Key × Tree) → List String
  | [] => []
  | (key, t) :: rest => key.name.toOption.toList ++ t.texts ++ memberTexts rest

end

end Tree

/-- The message of an error is one line, but for one of the texts if it is the name of a choice that
there is none of. -/
inductive Error.Cites (texts : List String) : Error → Prop
  | plain {what : String} (h : OneLine what) (spot : Option Spot) : Cites texts (.data what spot)
  | variant {name expected : String} (hname : name ∈ texts) (h : OneLine expected)
    (spot : Option Spot) :
    Cites texts (.data s!"unknown variant `{name}`, expected {expected}" spot)
  | faulty (f : Fault) : Cites texts (.faulty f)

namespace Error.Cites

variable {texts more : List String} {e : Error}

theorem mono (h : e.Cites texts) (hsub : texts ⊆ more) : e.Cites more := by
  cases h with
  | plain h spot => exact .plain h spot
  | variant hname h spot => exact .variant (hsub hname) h spot
  | faulty f => exact .faulty f

theorem unplaced (h : e.Cites texts) : e.unplaced.Cites texts := by
  cases h with
  | plain h spot => exact .plain h none
  | variant hname h spot => exact .variant hname h none
  | faulty f => exact .faulty f

end Error.Cites

/-! ## What is found -/

namespace Binary64

theorem oneLine_layOut {digits : List Char} (h : ∀ c ∈ digits, c ∉ Text.breakMarks) (power : Int) :
    OneLine (layOut digits power) := by
  have hzero : '0' ∉ Text.breakMarks := by decide
  have hzeros (n : Nat) : ∀ c ∈ List.replicate n '0', c ∉ Text.breakMarks :=
    fun c hc => List.eq_of_mem_replicate hc ▸ hzero
  have hdot : OneLine ".0" ∧ OneLine "." ∧ OneLine "0." ∧ '.' ∉ Text.breakMarks := by decide
  have hexponent (e : Int) : OneLine ((if e < 0 then "e-" else "e+") ++ toString e.natAbs) := by
    rw [Text.oneLine_append]
    exact ⟨by split <;> decide, Text.oneLine_nat _⟩
  unfold layOut
  simp only
  split
  · exact Text.oneLine_append.mpr
      ⟨Text.oneLine_ofList.mpr (List.forall_mem_append.mpr ⟨h, hzeros _⟩), hdot.1⟩
  · split
    · have hwhole (n : Nat) : OneLine (String.ofList (digits.take n)) :=
        Text.oneLine_ofList.mpr fun c hc => h c (List.mem_of_mem_take hc)
      have hplaces (n : Nat) : OneLine (String.ofList (digits.drop n)) :=
        Text.oneLine_ofList.mpr fun c hc => h c (List.mem_of_mem_drop hc)
      exact Text.oneLine_append.mpr ⟨Text.oneLine_append.mpr ⟨hwhole _, hdot.2.1⟩, hplaces _⟩
    · split
      · exact Text.oneLine_append.mpr
          ⟨hdot.2.2.1, Text.oneLine_ofList.mpr (List.forall_mem_append.mpr ⟨hzeros _, h⟩)⟩
      · split
        · exact Text.oneLine_append.mpr ⟨Text.oneLine_ofList.mpr h, hexponent _⟩
        · rw [List.forall_mem_cons] at h
          refine Text.oneLine_append.mpr ⟨Text.oneLine_ofList.mpr ?_, hexponent _⟩
          exact List.forall_mem_cons.mpr ⟨h.1, List.forall_mem_cons.mpr ⟨hdot.2.2.2, h.2⟩⟩
        · exact hexponent _

theorem oneLine_text (x : Binary64) : OneLine x.text := by
  have hsign : OneLine (if x.negative then "-" else "") := by split <;> decide
  unfold text
  simp only
  split
  · exact Text.oneLine_append.mpr ⟨hsign, by decide⟩
  · exact Text.oneLine_append.mpr
      ⟨hsign, oneLine_layOut (Text.oneLine_iff.mp (Text.oneLine_nat _)) _⟩

end Binary64

/-- What a reader says that it has found is one line. -/
theorem Tree.oneLine_found {t : Tree} {found : Found} (h : t.found = .ok found) :
    OneLine found.what := by
  have hopen : OneLine "boolean `" ∧ OneLine "integer `" ∧ OneLine "floating point `" ∧
      OneLine "`" ∧ OneLine "string " := by decide
  cases t with
  | null stop =>
    obtain rfl := Except.ok.inj h
    exact (by decide : OneLine "null")
  | bool b stop =>
    obtain rfl := Except.ok.inj h
    cases b
    · exact (by decide : OneLine "boolean `false`")
    · exact (by decide : OneLine "boolean `true`")
  | number n stop =>
    obtain ⟨n, -, rfl⟩ := exists_of_map_eq_ok h
    cases n with
    | whole i => simp [hopen]
    | real x => simp [hopen, Binary64.oneLine_text]
  | text s stop =>
    obtain ⟨s, -, rfl⟩ := exists_of_map_eq_ok h
    simp [hopen, Text.oneLine_inspect]
  | array items start closing =>
    obtain rfl := Except.ok.inj h
    exact (by decide : OneLine "sequence")
  | object members start closing =>
    obtain rfl := Except.ok.inj h
    exact (by decide : OneLine "map")
  | brokenWord f => cases h
  | missing f => cases h

/-! ## Readers -/

/-- The errors of a reader cite texts of what it reads. -/
def Reader.Cites {α : Type} (reader : Reader α) : Prop :=
  ∀ origin t, FailsOnly (Error.Cites t.texts) (reader origin t)

namespace Reader

variable {α β : Type} {reader : Reader α} {texts : List String}

theorem cites_mismatch {expected : String} (h : OneLine expected) (t : Tree) :
    (mismatch expected t).Cites texts := by
  unfold mismatch
  split
  · next found hfound =>
    have hwords : OneLine "invalid type: " ∧ OneLine ", expected " := by decide
    exact .plain (by simp [hwords, h, Tree.oneLine_found hfound]) _
  · exact .faulty _

theorem cites_outOfRange {expected : String} (h : OneLine expected) (t : Tree) :
    (outOfRange expected t).Cites texts := by
  unfold outOfRange
  split
  · next found hfound =>
    have hwords : OneLine "invalid value: " ∧ OneLine ", expected " := by decide
    exact .plain (by simp [hwords, h, Tree.oneLine_found hfound]) _
  · exact .faulty _

theorem Cites.map (h : reader.Cites) (f : α → β) : Cites fun origin t => (reader origin t).map f :=
  fun origin t => (h origin t).map f

theorem cites_text : Cites text := by
  intro origin t
  unfold text
  split
  · exact .ok _
  · exact .error (cites_mismatch (by decide) _)

theorem cites_bool : Cites bool := by
  intro origin t
  unfold bool
  split
  · exact .ok _
  · exact .error (cites_mismatch (by decide) _)

theorem cites_nothing : Cites nothing := by
  intro origin t
  unfold nothing
  split
  · exact .ok _
  · exact .error (cites_mismatch (by decide) _)

theorem cites_natural {name : String} (h : OneLine name) (bound : Nat) :
    Cites (natural name bound) := by
  intro origin t
  unfold natural
  split
  · split
    · exact .ok _
    · exact .error (cites_outOfRange h _)
  · exact .error (cites_mismatch h _)

theorem cites_uint64 : Cites uint64 := (cites_natural (by decide) _).map _

/-! ## Choices -/

variable {choices : List (String × α)}

theorem cites_named (h : OneLine (" or ".intercalate (choices.map fun c => "`" ++ c.1 ++ "`")))
    {name : String} (hname : name ∈ texts) (spot : Spot) :
    FailsOnly (Error.Cites texts) (named choices name spot) := by
  unfold named
  split
  · exact .ok _
  · exact .error (.variant hname h _)

/-- **A choice** cites the name that it does not know, or the only member of an object. -/
theorem cites_choice (h : OneLine (" or ".intercalate (choices.map fun c => "`" ++ c.1 ++ "`"))) :
    Cites (choice choices) := by
  have hmember (origin : Origin) (key : Key) (content : Tree) (more : List (Key × Tree))
      {rest : α → Except Error α} (hrest : ∀ a,
        FailsOnly (Error.Cites (Tree.memberTexts ((key, content) :: more))) (rest a)) :
      FailsOnly (Error.Cites (Tree.memberTexts ((key, content) :: more)))
        (do
          let name ← key.name.mapError .faulty
          let a ← named choices name key.stop
          nothing origin content
          rest a) := by
    cases hkey : key.name with
    | error f => exact .error (.faulty f)
    | ok name =>
      have hname : name ∈ Tree.memberTexts ((key, content) :: more) := by
        simp [Tree.memberTexts, hkey, Except.toOption]
      refine (cites_named h hname key.stop).bind fun a => ?_
      refine ((cites_nothing origin content).mono fun e he => he.mono ?_).bind fun _ => hrest a
      simp [Tree.memberTexts]
  intro origin t
  unfold choice
  split
  · exact cites_named h (by simp [Tree.texts]) _
  · exact .error (.faulty _)
  · split
    · exact hmember _ _ _ _ fun a => .ok a
    · exact .error (.plain (by decide) _)
    · exact .error (.faulty _)
    · exact .error (.faulty _)
    · refine hmember _ _ _ _ fun a => ?_
      split
      · exact .ok a
      · exact .error (.faulty _)
      · exact .error (.faulty _)
  · exact .error (.faulty _)
  · split
    · exact .error (.faulty _)
    · exact .error (cites_mismatch (by decide) _)

/-! ## Lists -/

theorem Cites.items (h : reader.Cites) (origin : Origin) (ts : List Tree) :
    FailsOnly (Error.Cites (Tree.itemTexts ts)) (items reader origin ts) := by
  induction ts with
  | nil => exact .ok _
  | cons t rest ih =>
    refine ((h origin t).mono fun e he => he.mono ?_).bind fun a =>
      (ih.mono fun e he => he.mono ?_).bind fun more => .ok _
    · exact List.subset_append_left ..
    · exact List.subset_append_right ..

theorem Cites.list (h : reader.Cites) : Cites (list reader) := by
  intro origin t
  unfold Reader.list
  split
  · refine (h.items origin _).bind fun as => ?_
    split
    · exact .error (.faulty _)
    · exact .ok _
  · exact .error (cites_mismatch (by decide) _)

/-- What is read from a value fails without a place, and with a citation from the value. -/
theorem Cites.ofValue (h : reader.Cites) (v : Value) :
    FailsOnly (fun e => e.Cites v.tree.texts ∧ e.unplaced = e) (reader.ofValue v) :=
  ((h .value v.tree).mono fun e he => ⟨he.unplaced, by cases e <;> rfl⟩).mapError

end Reader

/-! ## Records -/

namespace Schema

variable {α β : Type} {s : Schema α}

/-- The name of a record and of its fields are lines, and each field is read with citations only. -/
structure Cites (s : Schema α) : Prop where
  name : OneLine s.name
  fields : ∀ f ∈ s.fields, OneLine f.name ∧
    ∀ origin t a, FailsOnly (Error.Cites t.texts) (f.read origin t a)

theorem cites_of {reader : Reader β} (h : reader.Cites) {name : String} (hname : OneLine name)
    (put : β → α → α) : OneLine (Field.of name reader put).name ∧ ∀ origin t a,
      FailsOnly (Error.Cites t.texts) ((Field.of name reader put).read origin t a) :=
  ⟨hname, fun origin t _ => (h origin t).map _⟩

theorem Cites.readMembers (h : s.Cites) (origin : Origin) (members : List (Key × Tree)) (a : α)
    (seen : List String) :
    FailsOnly (Error.Cites (Tree.memberTexts members)) (s.readMembers origin members a seen) := by
  induction members generalizing a seen with
  | nil => exact .ok _
  | cons m rest ih =>
    obtain ⟨key, t⟩ := m
    have hrest (a : α) (seen : List String) :
        FailsOnly (Error.Cites (Tree.memberTexts ((key, t) :: rest)))
          (s.readMembers origin rest a seen) :=
      (ih a seen).mono fun e he => he.mono (List.subset_append_right ..)
    unfold Schema.readMembers
    cases key.name with
    | error f => exact .error (.faulty f)
    | ok name =>
      have hkey : (Except.ok name : Except Fault String).mapError Error.faulty = .ok name := rfl
      simp only [hkey, bind, Except.bind]
      split
      · exact hrest a seen
      · next f hfind =>
        obtain ⟨hname, hread⟩ := h.fields f (List.mem_of_find?_eq_some hfind)
        obtain rfl : f.name = name := by simpa using List.find?_some hfind
        split
        · have hwords : OneLine "duplicate field `" ∧ OneLine "`" := by decide
          exact .error (.plain (by simp [hwords, hname]) _)
        · refine ((hread origin t a).mono fun e he => he.mono ?_).bind fun a => hrest a _
          exact fun x hx => List.mem_append_left _ (List.mem_append_right _ hx)

theorem Cites.readItems (h : s.Cites) (origin : Origin) {pastEnd : Except Error Unit}
    (hend : ∀ texts, FailsOnly (Error.Cites texts) pastEnd) {fields : List (Field α)}
    (hfields : fields ⊆ s.fields) (ts : List Tree) (a : α) :
    FailsOnly (Error.Cites (Tree.itemTexts ts)) (readItems origin pastEnd fields ts a) := by
  induction fields generalizing ts a with
  | nil => exact .ok _
  | cons f fields ih =>
    rw [List.cons_subset] at hfields
    cases ts with
    | nil => exact (hend _).map _
    | cons t ts =>
      refine (((h.fields f hfields.1).2 origin t a).mono fun e he => he.mono ?_).bind fun a =>
        (ih hfields.2 ts a).mono fun e he => he.mono ?_
      · exact List.subset_append_left ..
      · exact List.subset_append_right ..

/-- **A record** cites what its fields cite. -/
theorem Cites.record (h : s.Cites) : s.record.Cites := by
  intro origin t
  unfold Schema.record
  split
  · refine (h.readMembers origin _ _ _).bind fun ⟨a, seen⟩ => ?_
    simp only
    split
    · split
      · next f hfind =>
        have hwords : OneLine "missing field `" ∧ OneLine "`" := by decide
        have hname := (h.fields f (List.mem_of_find?_eq_some hfind)).1
        split
        · exact .ok _
        · exact .error (.plain (by simp [hwords, hname]) _)
      · exact .ok _
    · exact .error (.faulty _)
  · refine (h.readItems origin (fun texts => ?_) (fun _ hf => hf) _ _).bind fun ⟨a, more⟩ => ?_
    · split
      · split
        · exact .ok _
        · have hwords : OneLine "invalid length " ∧ OneLine ", expected struct " ∧
            OneLine " with " ∧ OneLine " elements" := by decide
          exact .error (.plain (by simp [hwords, h.name]) _)
      · exact .error (.faulty _)
    · have hwords : OneLine "invalid length " ∧ OneLine ", expected fewer elements in array" := by
        decide
      simp only
      split
      · exact .ok _
      · exact .error (.faulty _)
      · exact .error (.plain (by simp [hwords]) _)
      · exact .error (.faulty _)
  · have hwords : OneLine "struct " := by decide
    exact .error (Reader.cites_mismatch (by simp [hwords, h.name]) _)

end Schema

end Irrigation.Json
