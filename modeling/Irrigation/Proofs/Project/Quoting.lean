import Irrigation.Proofs.Hardware.Handling
import Irrigation.Proofs.Json.Citing
import Irrigation.Proofs.Project.History

/-!
# What errors quote

The message of an error is one line, whatever is in a file, unless it quotes a text of the file or
of the operating system as it stands. `FileAccess.Quotes` says when that is: the mode of a watering
section that is not the one there is, the name of a polarity that there is not, and the text of a
fault that the system has no name for. A load fails with such an error or with one of one line
(`Service.failsOnly_loaded`).
-/

namespace Irrigation

open Text (OneLine breaks)
open Project

/-! ## Messages -/

/-- Every fault but one that has a text of its own is told in one line. -/
theorem FileError.oneLine_or (e : FileError) : OneLine e.message ∨ ∃ text, e = .other text := by
  cases e with
  | other text => exact .inr ⟨text, rfl⟩
  | _ => exact .inl (by decide)

theorem Json.Error.oneLine_faulty (f : Json.Fault) : OneLine (Json.Error.faulty f).message := by
  cases f <;> decide

theorem Json.Value.oneLine_kind (v : Json.Value) : OneLine v.kind := by
  cases v with
  | null => exact (by decide : OneLine "null")
  | bool _ => exact (by decide : OneLine "a boolean")
  | number _ => exact (by decide : OneLine "a number")
  | text _ => exact (by decide : OneLine "a string")
  | array _ => exact (by decide : OneLine "an array")
  | object _ => exact (by decide : OneLine "an object")

namespace ProjectError

theorem breaks_missing (what : String) : breaks (missing what).message = breaks what :=
  Text.breaks_between (by decide) (by decide) what

theorem breaks_malformed (what : String) : breaks (malformed what).message = breaks what :=
  Text.breaks_behind (by decide) what

theorem breaks_unsupportedMode (mode : String) :
    breaks (unsupportedMode mode).message = breaks mode :=
  Text.breaks_between (by decide) (by decide) mode

theorem breaks_file (e : FileError) : breaks (file e).message = breaks e.message :=
  Text.breaks_behind (by decide) e.message

theorem breaks_json (e : Json.Error) : breaks (json e).message = breaks e.message :=
  Text.breaks_behind (by decide) e.message

end ProjectError

namespace Error

theorem breaks_project (e : ProjectError) : breaks (project e).message = breaks e.message :=
  Text.breaks_behind (by decide) e.message

theorem oneLine_line (e : LineError) : OneLine (line e).message :=
  (Text.breaks_behind (by decide) e.message).trans e.oneLine_message

theorem oneLine_missing {what : String} (h : OneLine what) :
    OneLine (project (.missing what)).message :=
  ((breaks_project _).trans (ProjectError.breaks_missing what)).trans h

theorem oneLine_file {e : FileError} (h : OneLine e.message) :
    OneLine (project (.file e)).message :=
  ((breaks_project _).trans (ProjectError.breaks_file e)).trans h

theorem oneLine_json {e : Json.Error} (h : OneLine e.message) :
    OneLine (project (.json e)).message :=
  ((breaks_project _).trans (ProjectError.breaks_json e)).trans h

theorem oneLine_malformed {what : String} (h : OneLine what) :
    OneLine (project (.malformed what)).message :=
  ((breaks_project _).trans (ProjectError.breaks_malformed what)).trans h

end Error

/-! ## Quotations -/

/-- An error quotes a text of the watering section of a document. -/
inductive Project.Document.Quotes (d : Document) : Error → String → Prop
  /-- The mode is not the one there is. -/
  | mode {v : Json.Value} {a : Section} (hd : d.section? sectionKey = some v)
    (ha : Section.ofValue v = .ok a) (hmode : a.mode ≠ cycledFlow) :
    Quotes d (.project (.unsupportedMode a.mode)) a.mode
  /-- A polarity has a name that there is not. -/
  | polarity {v : Json.Value} {name expected : String} (hd : d.section? sectionKey = some v)
    (hv : Section.ofValue v =
      .error (.data s!"unknown variant `{name}`, expected {expected}" none))
    (hname : name ∈ v.tree.texts) (hexpected : OneLine expected) :
    Quotes d (.project (.malformed
      s!"{sectionKey}: unknown variant `{name}`, expected {expected}")) name

/-- The error to which the use of a file leads quotes a text that has come from there. -/
inductive FileAccess.Quotes : FileAccess → Error → String → Prop
  | document {path : String} {content : Except FileError String} {d : Document} {e : Error}
    {text : String} (hheld : Document.held content = .ok d) (h : d.Quotes e text) :
    Quotes (.read path content) e text
  | unread (path text : String) :
    Quotes (.read path (.error (.other text))) (.project (.file (.other text))) text
  | unwritten (path content text : String) :
    Quotes (.write path content (.error (.other text))) (.project (.file (.other text))) text

/-- **A message that quotes a text** is broken where the text is. -/
theorem FileAccess.Quotes.breaks_message {access : FileAccess} {e : Error} {text : String}
    (h : access.Quotes e text) : breaks e.message = breaks text := by
  cases h with
  | document _ h =>
    cases h with
    | mode =>
      rw [Error.breaks_project, ProjectError.breaks_unsupportedMode]
    | @polarity _ _ expected _ _ _ hexpected =>
      have hwords : breaks sectionKey = [] ∧ breaks ": unknown variant `" = [] ∧
        breaks "`, expected " = [] := by decide
      rw [Error.breaks_project, ProjectError.breaks_malformed]
      change breaks (sectionKey ++ ": unknown variant `" ++ text ++ "`, expected " ++ expected) = _
      simp [hwords, show breaks expected = [] from hexpected]
  | unread | unwritten => rw [Error.breaks_project, ProjectError.breaks_file]; rfl

/-- An error quotes a text that one of some uses of files has given. -/
def QuotesFrom (accesses : List FileAccess) (e : Error) (text : String) : Prop :=
  ∃ access ∈ accesses, access.Quotes e text

/-- Either the message is one line, or the error quotes a text. -/
def Error.IsPlainOr (P : Error → String → Prop) (e : Error) : Prop :=
  OneLine e.message ∨ ∃ text, P e text

/-! ## Sections -/

namespace Project

open Json

theorem cites_polarity : Polarity.reader.Cites := Reader.cites_choice (by decide)

theorem DeviceEntry.cites_schema : DeviceEntry.schema.Cites where
  name := by decide
  fields := by
    simp only [DeviceEntry.schema, List.forall_mem_cons]
    exact ⟨Schema.cites_of Reader.cites_text (by decide) _,
      Schema.cites_of Reader.cites_uint64 (by decide) _,
      Schema.cites_of cites_polarity (by decide) _,
      Schema.cites_of Reader.cites_bool (by decide) _, fun _ h => absurd h List.not_mem_nil⟩

theorem Flow.cites_schema : Flow.schema.Cites where
  name := by decide
  fields := by
    simp only [Flow.schema, List.forall_mem_cons]
    exact ⟨Schema.cites_of Reader.cites_uint64 (by decide) _,
      Schema.cites_of Reader.cites_uint64 (by decide) _,
      Schema.cites_of Reader.cites_uint64 (by decide) _,
      Schema.cites_of DeviceEntry.cites_schema.record.list (by decide) _,
      fun _ h => absurd h List.not_mem_nil⟩

theorem Section.cites_schema : Section.schema.Cites where
  name := by decide
  fields := by
    simp only [Section.schema, List.forall_mem_cons]
    exact ⟨Schema.cites_of Reader.cites_text (by decide) _,
      Schema.cites_of Flow.cites_schema.record (by decide) _,
      fun _ h => absurd h List.not_mem_nil⟩

/-- The error is that a member is missing whose name is one line. -/
def Misses (e : ProjectError) : Prop := ∃ what, e = .missing what ∧ OneLine what

theorem failsOnly_legacyDevice (flow : Members) (r : Role) :
    FailsOnly Misses (legacyDevice flow r) := by
  have henabled : OneLine (legacyKeys r).enabled := by cases r <;> decide
  have hpin : OneLine (legacyKeys r).pin := by cases r <;> decide
  unfold legacyDevice
  simp only
  split
  · split
    · split
      · exact .ok _
      · exact .error ⟨_, rfl, hpin⟩
    · exact .ok _
  · exact .error ⟨_, rfl, henabled⟩

theorem failsOnly_upgradeRoot (root : Members) : FailsOnly Misses (upgradeRoot root) := by
  have hflow : FailsOnly Misses (.error (.missing flowKey) : Except _ (Option Members)) :=
    .error ⟨_, rfl, by decide⟩
  unfold upgradeRoot
  simp only
  split
  · split
    · split
      · refine .bind ?_ fun upgraded => .ok _
        unfold upgradeFlow
        split
        · exact .ok _
        · exact (failsOnly_legacyDevice _ .valve).bind fun valve =>
            (failsOnly_legacyDevice _ .pump).bind fun pump => .ok _
      · exact hflow
    · exact hflow
  · exact .ok _

/-- What a file holds is a document, or the error is told in one line, or it quotes the fault of the
file. -/
theorem Document.failsOnly_held (content : Except FileError String) :
    FailsOnly (fun e => (Error.project e).IsPlainOr fun e text =>
      content = .error (.other text) ∧ e = .project (.file (.other text))) (held content) := by
  cases content with
  | error e =>
    refine .error (e.oneLine_or.imp Error.oneLine_file ?_)
    rintro ⟨text, rfl⟩
    exact ⟨text, rfl, rfl⟩
  | ok text =>
    refine .bind (x := ofText text) ?_ fun d => ?_
    · unfold ofText
      split
      · unfold ofValue
        split
        · exact .ok _
        · next v _ =>
          have hwords : OneLine "project root must be an object, found " := by decide
          exact .error (.inl (Error.oneLine_malformed (by simp [hwords, Json.Value.oneLine_kind])))
      · next f _ => exact .error (.inl (Error.oneLine_json (Json.Error.oneLine_faulty f)))
    · refine .map (.map ((failsOnly_upgradeRoot d.titled.root).mono ?_) _) _
      rintro _ ⟨what, rfl, hwhat⟩
      exact .inl (Error.oneLine_missing hwhat)

end Project

/-! ## Loads -/

namespace Watering

theorem failsOnly_review (f : Flow) (r : Role) (s : Watering) :
    FailsOnly (fun e => OneLine (Error.project e).message) (s.review f r).1 := by
  unfold review
  split
  · exact .ok _
  · next e _ =>
    refine .map ?_ _
    unfold DeviceEntry.offset?
    split
    · exact .ok _
    · split
      · exact .ok _
      · have hwords : OneLine "pinID " ∧ OneLine " out of range" := by decide
        exact .error (Error.oneLine_malformed (by simp [hwords]))

theorem failsOnly_applyFlow (f : Flow) (s : Watering) :
    FailsOnly (fun e => OneLine e.message) (s.applyFlow f).1 := by
  have hvalve := failsOnly_review f .valve s
  unfold applyFlow
  rcases hr : s.review f .valve with ⟨_ | valve, s₁⟩ <;> rw [hr] at hvalve
  · exact .error (hvalve _ rfl)
  · have hpump := failsOnly_review f .pump s₁
    simp only
    rcases hr : s₁.review f .pump with ⟨_ | pump, s₂⟩ <;> rw [hr] at hpump
    · exact .error (hpump _ rfl)
    · simp only
      rcases s₂.rebind ⟨valve.offset, pump.offset⟩ with ⟨_ | _, s₃⟩
      · exact .error (Error.oneLine_line _)
      · exact .ok _

/-- **The settings of a document** are applied, or the error is told in one line, or it quotes a
text of the section. -/
theorem failsOnly_loadFrom (d : Document) (s : Watering) :
    FailsOnly (Error.IsPlainOr d.Quotes) (s.loadFrom d).1 := by
  unfold loadFrom
  split
  · exact .ok _
  · next v hd =>
    have hcites := Section.cites_schema.record.ofValue v
    split
    · next e hv =>
      have hmalformed {what : String} (h : OneLine what) :
          OneLine (Error.project (.malformed s!"{sectionKey}: {what}")).message := by
        have hwords : OneLine sectionKey ∧ OneLine ": " := by decide
        exact Error.oneLine_malformed (by simp [hwords, h])
      obtain ⟨hcited, hplace⟩ := hcites e hv
      refine .error ?_
      cases hcited with
      | plain h spot =>
        obtain rfl : none = spot := (Json.Error.data.inj hplace).2
        exact .inl (hmalformed h)
      | @variant name expected hname h spot =>
        obtain rfl : none = spot := (Json.Error.data.inj hplace).2
        exact .inr ⟨name, .polarity hd hv hname h⟩
      | faulty f => exact .inl (hmalformed (Json.Error.oneLine_faulty f))
    · next a ha =>
      split
      · next hmode => exact .error (.inr ⟨_, .mode hd ha hmode⟩)
      · exact (failsOnly_applyFlow _ _).mono fun e he => .inl he

end Watering

namespace Service

/-- **A load** succeeds, or the error is told in one line, or it quotes a text that has come from
the file. -/
theorem failsOnly_loaded (path : String) (content : Except FileError String) (s : Service) :
    FailsOnly (Error.IsPlainOr (FileAccess.read path content).Quotes)
      (s.loaded path content).1 := by
  obtain ⟨s₁, -, hfile⟩ := Document.ofFile_eq content (log .info s!"Project: loading {path}" s)
  have hheld := Document.failsOnly_held content
  rw [loaded, hfile]
  cases hcontent : Document.held content with
  | error e =>
    refine .error ((hheld e hcontent).imp id ?_)
    rintro ⟨text, rfl, he⟩
    exact ⟨text, he ▸ .unread path text⟩
  | ok d =>
    have hload := Watering.failsOnly_loadFrom d s₁.system
    simp only [adopt]
    rcases hl : s₁.system.loadFrom d with ⟨_ | _, system⟩ <;> rw [hl] at hload
    · refine .error ((hload _ rfl).imp id ?_)
      rintro ⟨text, h⟩
      exact ⟨text, .document hcontent h⟩
    · exact .ok _

end Service

end Irrigation
