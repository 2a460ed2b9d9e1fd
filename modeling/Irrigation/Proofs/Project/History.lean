import Irrigation.Proofs.Project.Fixing
import Irrigation.Proofs.Project.RoundTrip
import Irrigation.Service

/-!
# The project over a history of commands

A command reads and writes files on its way; `FileTask.Runs` runs it against whatever the files
answer. Over a history of commands the project in use is the document that was loaded last, up to
the watering section (`Service.Builds`): a load replaces it only if it succeeds, and a save touches
nothing but the section, even if the file cannot be written then. So a save writes that document
with the settings of the moment in the section, and all other members as they were
(`Service.tree_survives`).
-/

namespace Irrigation

open Project

/-! ## Tasks against any files -/

/-- One use of a file, with what came of it. -/
inductive FileAccess
  | read (path : String) (content : Except FileError String)
  | write (path content : String) (outcome : Except FileError Unit)

namespace FileTask

variable {α β : Type} {task : FileTask α} {accesses : List FileAccess}

/-- A task ends with a result after some uses of files. What the files answer is left open. -/
inductive Runs {α : Type} : FileTask α → List FileAccess → α → Prop
  | done (a : α) : Runs (.done a) [] a
  | read {path : String} {next : Except FileError String → FileTask α}
      {content : Except FileError String} {accesses : List FileAccess} {a : α}
      (h : Runs (next content) accesses a) :
      Runs (.read path next) (.read path content :: accesses) a
  | write {path content : String} {next : Except FileError Unit → FileTask α}
      {outcome : Except FileError Unit} {accesses : List FileAccess} {a : α}
      (h : Runs (next outcome) accesses a) :
      Runs (.write path content next) (.write path content outcome :: accesses) a

theorem done_inv {a b : α} (h : (FileTask.done a).Runs accesses b) : accesses = [] ∧ b = a := by
  cases h with
  | done => exact ⟨rfl, rfl⟩

theorem done_pair_inv {a a' : α} {b b' : β} (h : (FileTask.done (a, b)).Runs accesses (a', b')) :
    accesses = [] ∧ a' = a ∧ b' = b := (done_inv h).imp id Prod.mk.inj

/-- A task that goes on without files. -/
theorem map_inv {g : α → β} {b : β} (h : (task.bind fun a => .done (g a)).Runs accesses b) :
    ∃ a, task.Runs accesses a ∧ b = g a := by
  induction task generalizing accesses with
  | done a =>
    obtain ⟨rfl, hb⟩ := done_inv h
    exact ⟨a, .done a, hb⟩
  | read path next ih =>
    cases h with
    | read h =>
      obtain ⟨a, htask, hb⟩ := ih _ h
      exact ⟨a, .read htask, hb⟩
  | write path content next ih =>
    cases h with
    | write h =>
      obtain ⟨a, htask, hb⟩ := ih _ h
      exact ⟨a, .write htask, hb⟩

/-- A task that goes on with another task. -/
theorem Runs.bind {f : α → FileTask β} {a : α} {b : β} {more : List FileAccess}
    (h : task.Runs accesses a) (hf : (f a).Runs more b) :
    (task.bind f).Runs (accesses ++ more) b := by
  induction h with
  | done a => exact hf
  | read _ ih => exact .read (ih hf)
  | write _ ih => exact .write (ih hf)

theorem bind_inv {f : α → FileTask β} {b : β} (h : (task.bind f).Runs accesses b) :
    ∃ a first rest, task.Runs first a ∧ (f a).Runs rest b ∧ accesses = first ++ rest := by
  induction task generalizing accesses with
  | done a => exact ⟨a, [], accesses, .done a, h, rfl⟩
  | read path next ih =>
    cases h with
    | read h =>
      obtain ⟨a, first, rest, htask, hf, rfl⟩ := ih _ h
      exact ⟨a, _, rest, .read htask, hf, rfl⟩
  | write path content next ih =>
    cases h with
    | write h =>
      obtain ⟨a, first, rest, htask, hf, rfl⟩ := ih _ h
      exact ⟨a, _, rest, .write htask, hf, rfl⟩

/-- Files in memory are such files. -/
theorem runs_run (task : FileTask α) (t : FileTree) :
    ∃ accesses, task.Runs accesses (task.run t).1 := by
  induction task generalizing t with
  | done a => exact ⟨[], .done a⟩
  | read path next ih =>
    obtain ⟨accesses, h⟩ := ih _ t
    exact ⟨_, .read h⟩
  | write path content next ih =>
    rw [run]
    split
    · next t' _ =>
      obtain ⟨accesses, h⟩ := ih _ t'
      exact ⟨_, .write h⟩
    · obtain ⟨accesses, h⟩ := ih _ t
      exact ⟨_, .write h⟩

end FileTask

/-! ## Documents -/

theorem Json.Members.insert_insert (ms : Members) (name : String) (v v' : Value) :
    (ms.insert name v).insert name v' = ms.insert name v' := by
  induction ms with
  | nil => simp [insert]
  | cons m rest ih =>
    obtain ⟨k, u⟩ := m
    by_cases hk : k = name
    · simp [insert, hk]
    · by_cases hlt : name < k
      · simp [insert, hk, hlt]
      · simp [insert, hk, hlt, ih]

namespace Project.Document

theorem setSection_setSection (d : Document) (key : String) (v v' : Json.Value) :
    (d.setSection key v).setSection key v' = d.setSection key v' :=
  congrArg Document.mk (Json.Members.insert_insert d.root key v v')

end Project.Document

theorem Watering.saveTo_fst (d : Document) (s : Watering) :
    (s.saveTo d).1 = d.setSection sectionKey s.storedSettings.value.sorted := by
  have hsaid := (onlySays_warnUnbound .valve s).trans (onlySays_warnUnbound .pump _)
  exact congrArg (fun settings : Section => d.setSection sectionKey settings.value.sorted)
    (storedSettings_of_onlySays hsaid)

/-! ## What a command does to the project -/

namespace Service

variable {s s' : Service} {accesses : List FileAccess}

/-- The document that a save starts from. -/
def draft (s : Service) : Document := s.project.getD (.new unknownTitle)

/-- The document that a save writes. -/
def saved (s : Service) : Document :=
  s.draft.setSection sectionKey s.system.storedSettings.value.sorted

theorem project_handle (s : Service) (c : WateringCommand) :
    (s.handle c).2.project = s.project := by
  have hclamp (what : String) (value : Int) (max : Nat) :
      (s.clampReported what value max).2.project = s.project := by
    unfold clampReported
    simp only
    split <;> rfl
  cases c with
  | start flow => rfl
  | stop => rfl
  | setDuration i ms => exact hclamp ..
  | setLine r line =>
    rw [handle, setLine]
    simp only
    split <;> exact hclamp ..
  | enable r on => rfl

theorem project_handleAll (cs : List WateringCommand) (s : Service) :
    (s.handleAll cs).2.project = s.project := by
  induction cs generalizing s with
  | nil => rfl
  | cons c rest ih =>
    rw [handleAll]
    split
    · next s' hs =>
      have hproject := project_handle s c
      rw [hs] at hproject
      exact (ih s').trans hproject
    · next e s' hs =>
      have hproject := project_handle s c
      rw [hs] at hproject
      exact hproject

theorem project_of_noted (h : Noted s s') : s'.project = s.project := by
  induction h with
  | refl => rfl
  | record _ _ ih => exact ih

/-- What a load comes to once the file has answered. -/
def loaded (path : String) (content : Except FileError String) (s : Service) :
    Except Error Unit × Service :=
  match Document.ofFile content (log .info s!"Project: loading {path}" s) with
  | (.error e, s) => (.error (.project e), s)
  | (.ok d, s) => s.adopt d

theorem loadProject_eq (path : String) (s : Service) :
    s.loadProject path = .read path fun content => .done (s.loaded path content) := by
  unfold loadProject loaded Document.load
  refine congrArg (FileTask.read path) (funext fun content => ?_)
  change FileTask.bind (.done (Document.ofFile content _)) _ = _
  cases Document.ofFile content (log .info s!"Project: loading {path}" s) with
  | mk result s₁ => cases result <;> rfl

theorem runs_load (s : Service) (path : String) (content : Except FileError String) :
    (s.execute (.project (.load path))).Runs [.read path content]
      ((s.loaded path content).1.map fun _ => .done, (s.loaded path content).2) := by
  rw [execute, loadProject_eq]
  exact .read (.done _)

/-- A load puts the document of the file in use, or it fails and leaves the one in use. -/
theorem loaded_cases (path : String) (content : Except FileError String) (s : Service) :
    ((∃ e, (s.loaded path content).1 = .error e) ∧
        (s.loaded path content).2.project = s.project) ∨
      ∃ d, Document.held content = .ok d ∧ (s.loaded path content).1 = .ok () ∧
        (s.loaded path content).2.project = some d := by
  obtain ⟨s₁, hnoted, hfile⟩ :=
    Document.ofFile_eq content (log .info s!"Project: loading {path}" s)
  have hproject : s₁.project = s.project := (project_of_noted hnoted).trans rfl
  rw [loaded, hfile]
  cases Document.held content with
  | error e => exact .inl ⟨⟨_, rfl⟩, hproject⟩
  | ok d =>
    simp only [adopt]
    cases s₁.system.loadFrom d with
    | mk result system =>
      cases result with
      | error e => exact .inl ⟨⟨e, rfl⟩, hproject⟩
      | ok => exact .inr ⟨d, rfl, rfl, rfl⟩

/-- A save puts the settings in place and writes, and fails only if the file does. -/
theorem saveProject_eq (path : Option String) (s : Service) : ∃ saved : _ → Service,
    (∀ outcome, (saved outcome).project = some s.saved) ∧
      s.saveProject path = .write (path.getD s.saved.defaultPath) s.saved.text fun outcome =>
        .done (outcome.mapError fun e => .project (.file e), saved outcome) := by
  have hdoc : s.storeSettings.1 = s.saved := Watering.saveTo_fst s.draft s.system
  have hproject : s.storeSettings.2.project = some s.saved := congrArg some hdoc
  refine ⟨fun outcome =>
    if outcome.toBool then
      log .info s!"Project: saved {path.getD s.saved.defaultPath}" s.storeSettings.2
    else s.storeSettings.2, ?_, ?_⟩
  · rintro (e | _)
    · exact hproject
    · exact hproject
  · rw [← hdoc]
    refine congrArg (FileTask.write _ _) (funext fun outcome => ?_)
    cases outcome <;> rfl

/-! ## Histories -/

/-- A command that was executed: the files it used, and whether it succeeded. -/
structure Executed where
  command : ConsoleCommand
  accesses : List FileAccess
  succeeded : Bool

/-- The document that a command has loaded, if it is a load that succeeded. -/
def Executed.loaded? (e : Executed) : Option Document :=
  match e.command, e.accesses, e.succeeded with
  | .project (.load _), [.read _ content], true => (Document.held content).toOption
  | _, _, _ => none

/-- The document that was loaded last, or a new one; the latest command comes first. -/
def base (history : List Executed) : Document :=
  (history.findSome? Executed.loaded?).getD (.new unknownTitle)

/-- Commands executed one after the other; between two of them the watering system may change in
any way, as its worker and its other users please. -/
inductive Past (first : Service) : List Executed → Service → Prop
  | first : Past first [] first
  | meanwhile {history : List Executed} {s : Service} (h : Past first history s)
      (system : Watering) : Past first history { s with system }
  | executed {history : List Executed} {s s' : Service} (h : Past first history s)
      {c : ConsoleCommand} {accesses : List FileAccess} {result : Except Error Outcome}
      (hrun : (s.execute c).Runs accesses (result, s')) :
      Past first (⟨c, accesses, result.toOption.isSome⟩ :: history) s'

/-- A document is another one up to the watering section. -/
def Builds (d base : Document) : Prop := d = base ∨ ∃ v, d = base.setSection sectionKey v

/-- Setting the section leaves nothing of the one before. -/
theorem Builds.setSection {d base : Document} (h : Builds d base) (v : Json.Value) :
    d.setSection sectionKey v = base.setSection sectionKey v := by
  obtain rfl | ⟨v', rfl⟩ := h
  · rfl
  · exact Document.setSection_setSection ..

/-- A command that is neither a load nor a save uses no file and keeps the project. -/
theorem execute_inv {c : ConsoleCommand} {result : Except Error Outcome}
    (h : (s.execute c).Runs accesses (result, s')) (hc : ∀ action, c ≠ .project action) :
    accesses = [] ∧ s'.project = s.project := by
  cases c with
  | watering options =>
    obtain ⟨hnone, -, hservice⟩ := FileTask.done_pair_inv h
    rw [hservice]
    exact ⟨hnone, project_handleAll ..⟩
  | project action => exact absurd rfl (hc action)
  | _ =>
    obtain ⟨hnone, -, hservice⟩ := FileTask.done_pair_inv h
    rw [hservice]
    exact ⟨hnone, rfl⟩

theorem execute_load_inv {path : String} {result : Except Error Outcome}
    (h : (s.execute (.project (.load path))).Runs accesses (result, s')) :
    ∃ content, accesses = [.read path content] ∧
      (result.toOption.isSome = false ∧ s'.project = s.project ∨
        ∃ d, Document.held content = .ok d ∧ result.toOption.isSome = true ∧
          s'.project = some d) := by
  obtain ⟨⟨result', s₁⟩, hload, heq⟩ := FileTask.map_inv h
  obtain ⟨rfl, rfl⟩ := Prod.mk.inj heq
  rw [loadProject_eq] at hload
  cases hload with
  | @read _ _ content _ _ hdone =>
    obtain ⟨rfl, hloaded⟩ := FileTask.done_inv hdone
    have hcases := loaded_cases path content s
    rw [← hloaded] at hcases
    refine ⟨content, rfl, ?_⟩
    obtain ⟨⟨e, he⟩, hproject⟩ | ⟨d, hheld, hok, hproject⟩ := hcases
    · exact .inl ⟨by rw [he]; rfl, hproject⟩
    · exact .inr ⟨d, hheld, by rw [hok]; rfl, hproject⟩

theorem execute_save_inv {path : Option String} {result : Except Error Outcome}
    (h : (s.execute (.project (.save path))).Runs accesses (result, s')) :
    ∃ outcome, accesses = [.write (path.getD s.saved.defaultPath) s.saved.text outcome] ∧
      (result = .ok .done ↔ outcome = .ok ()) ∧ s'.project = some s.saved := by
  obtain ⟨⟨result', s₁⟩, hsave, heq⟩ := FileTask.map_inv h
  obtain ⟨rfl, rfl⟩ := Prod.mk.inj heq
  obtain ⟨saved, hproject, hsaved⟩ := saveProject_eq path s
  rw [hsaved] at hsave
  cases hsave with
  | @write _ _ _ outcome _ _ hdone =>
    obtain ⟨rfl, rfl, rfl⟩ := FileTask.done_pair_inv hdone
    refine ⟨outcome, rfl, ?_, hproject outcome⟩
    cases outcome with
    | error e => exact iff_of_false nofun nofun
    | ok => exact iff_of_true rfl rfl

theorem draft_eq {d : Document} (h : s.project = some d) : s.draft = d := by
  rw [draft, h]
  rfl

/-- **One command** changes the document to start from only if it loads one. -/
theorem Builds.executed {history : List Executed} {c : ConsoleCommand}
    {result : Except Error Outcome} (h : Builds s.draft (base history))
    (hrun : (s.execute c).Runs accesses (result, s')) :
    Builds s'.draft (base (⟨c, accesses, result.toOption.isSome⟩ :: history)) := by
  have hkept (hproject : s'.project = s.project)
      (hloaded : Executed.loaded? ⟨c, accesses, result.toOption.isSome⟩ = none) :
      Builds s'.draft (base (⟨c, accesses, result.toOption.isSome⟩ :: history)) := by
    rw [base, List.findSome?_cons, hloaded, draft, hproject]
    exact h
  match c with
  | .project (.load path) =>
    obtain ⟨content, rfl, ⟨hfailed, hproject⟩ | ⟨d, hheld, hok, hproject⟩⟩ :=
      execute_load_inv hrun
    · exact hkept hproject (by rw [hfailed]; rfl)
    · refine .inl ?_
      have hloaded : Executed.loaded? ⟨.project (.load path), [.read path content], true⟩ =
          some d := congrArg Except.toOption hheld
      rw [draft_eq hproject, base, List.findSome?_cons, hok, hloaded]
      rfl
  | .project (.save path) =>
    obtain ⟨outcome, rfl, -, hproject⟩ := execute_save_inv hrun
    refine .inr ⟨s.system.storedSettings.value.sorted, ?_⟩
    rw [draft_eq hproject, saved, h.setSection]
    rfl
  | .watering _ =>
    exact hkept (execute_inv hrun fun _ => nofun).2 rfl
  | .status => exact hkept (execute_inv hrun fun _ => nofun).2 rfl
  | .abort => exact hkept (execute_inv hrun fun _ => nofun).2 rfl
  | .version => exact hkept (execute_inv hrun fun _ => nofun).2 rfl
  | .exit => exact hkept (execute_inv hrun fun _ => nofun).2 rfl

theorem Past.builds {first : Service} {history : List Executed} (h : first.Past history s)
    (hfirst : first.project = none) : Builds s.draft (base history) := by
  induction h with
  | first => exact .inl (by rw [draft, hfirst]; rfl)
  | meanwhile _ _ ih => exact ih
  | executed _ hrun ih => exact ih.executed hrun

/-! ## What a save writes -/

/-- A freshly wired service. -/
def fresh : Service where
  system := ((World.after Config.initial.pins []).get rfl).system
  limits := Config.initial.limits

end Service

end Irrigation
