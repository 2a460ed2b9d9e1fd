import Irrigation.Proofs.Project.Loading

/-!
# Documents brought up to date

What a file holds is brought up to date on its way in, and what happens there is said in a journal.
The journal has no part in the outcome: `Document.fixed` is what becomes of a document, `held` what
becomes of the content of a file, and all that happens to the state which keeps the journal is that
something is noted (`Noted`).
-/

namespace Irrigation

/-- Nothing happened but that something was noted. -/
inductive Noted {σ : Type} [Journaling σ] (s : σ) : σ → Prop
  | refl : Noted s s
  | record {s' : σ} (h : Noted s s') (e : Effect) : Noted s (record s' e)

namespace Project.Document

variable {σ : Type} [Journaling σ]

/-- A document that has a title. -/
def titled (d : Document) : Document :=
  match d.title? with
  | some _ => d
  | none => d.setSection titleKey (.text unknownTitle)

/-- A document brought up to date. -/
def fixed (d : Document) : Except ProjectError Document :=
  d.titled.upgrade.map fun u => u.2.stamp versionKey currentVersion

/-- The document that the content of a file holds, brought up to date. -/
def held : Except FileError String → Except ProjectError Document
  | .error e => .error (.file e)
  | .ok text => (ofText text).bind fixed

theorem section?_setSection (d : Document) (key : String) (v : Json.Value) (other : String) :
    (d.setSection key v).section? other = if key = other then some v else d.section? other :=
  Json.Members.find?_insert d.root key v other

/-- Giving a title changes the title only. -/
theorem section?_titled (d : Document) {key : String} (hkey : key ≠ titleKey) :
    d.titled.section? key = d.section? key := by
  unfold titled
  split
  · rfl
  · rw [section?_setSection, if_neg (Ne.symm hkey)]

/-- Stamping a member changes that member only. -/
theorem section?_stamp (d : Document) (name value : String) {key : String} (hkey : key ≠ name) :
    (d.stamp name value).section? key = d.section? key := by
  unfold stamp
  split
  · rfl
  · exact (section?_setSection d name (.text value) key).trans (if_neg (Ne.symm hkey))

theorem fixTitle_eq (d : Document) (s : σ) : ∃ s', Noted s s' ∧ d.fixTitle s = (d.titled, s') := by
  unfold fixTitle titled
  cases d.title? with
  | some _ => exact ⟨s, .refl, rfl⟩
  | none => exact ⟨_, .record .refl _, rfl⟩

/-- **What bringing up to date does**: it may fail, and then the document has a title at least. -/
theorem fix_eq (d : Document) (s : σ) : ∃ s', Noted s s' ∧
    ((∃ e, d.fixed = .error e ∧ d.fix s = (.error e, d.titled, s')) ∨
      ∃ d', d.fixed = .ok d' ∧ d.fix s = (.ok (), d', s')) := by
  obtain ⟨s₁, hnoted, htitle⟩ := fixTitle_eq d s
  unfold fixed fix
  rw [htitle]
  simp only
  cases hupgrade : d.titled.upgrade with
  | error e => exact ⟨s₁, hnoted, .inl ⟨e, rfl, rfl⟩⟩
  | ok u =>
    obtain ⟨upgraded, d'⟩ := u
    cases upgraded with
    | false => exact ⟨s₁, hnoted, .inr ⟨_, rfl, rfl⟩⟩
    | true => exact ⟨_, hnoted.record _, .inr ⟨_, rfl, rfl⟩⟩

theorem ofFile_eq (content : Except FileError String) (s : σ) :
    ∃ s', Noted s s' ∧ ofFile content s = (held content, s') := by
  cases content with
  | error e => exact ⟨s, .refl, rfl⟩
  | ok text =>
    unfold held ofFile
    simp only
    cases ofText text with
    | error e => exact ⟨s, .refl, rfl⟩
    | ok d =>
      simp only [Except.bind]
      obtain ⟨s', hnoted, ⟨e, hfixed, hfix⟩ | ⟨d', hfixed, hfix⟩⟩ := fix_eq d s
      · exact ⟨s', hnoted, by rw [hfixed, hfix]⟩
      · exact ⟨s', hnoted, by rw [hfixed, hfix]⟩

end Project.Document

end Irrigation
