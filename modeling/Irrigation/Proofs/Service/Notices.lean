import Irrigation.Program.Run
import Irrigation.Proofs.Console.Flows
import Irrigation.Proofs.Project.Quoting
import Irrigation.Proofs.Worker.Notices

/-!
# What commands tell

Whatever its state, a service tells nothing but lines while it carries out a line of the console,
with one exception: if the command fails, the last thing told is the error, and this may quote a
text that a file or the operating system has given (`Service.tells_of_obey`).
-/

namespace Irrigation

open Text (OneLine breaks)
open Project

/-! ## The settings -/

namespace Watering

theorem tellsLines_warnUnbound (r : Role) (s : Watering) : s.TellsLines (s.warnUnbound r) := by
  unfold warnUnbound
  split
  · exact .report .warn (by simp +decide) s
  · exact .refl s

theorem tellsLines_saveTo (d : Document) (s : Watering) : s.TellsLines (s.saveTo d).2 :=
  ((tellsLines_warnUnbound .valve s).trans (tellsLines_warnUnbound .pump _)).trans (.log ..)

theorem tellsLines_review (f : Flow) (r : Role) (s : Watering) :
    s.TellsLines (s.review f r).2 := by
  have hname : OneLine r.projectName := by cases r <;> decide
  have hpolarity (p : Polarity) : OneLine p.label := by cases p <;> decide
  unfold review
  split
  · exact .report .warn (by simp +decide [hname]) s
  · simp only
    split
    · exact .refl s
    · exact .report .warn (by simp +decide [hpolarity]) s

theorem tellsLines_grant (r : Role) (wish : Wish) (s : Watering) :
    s.TellsLines (s.grant r wish) := by
  unfold grant
  split
  · exact tellsLines_enable ..
  · exact .refl s

theorem tellsLines_applyFlow (f : Flow) (s : Watering) : s.TellsLines (s.applyFlow f).2 := by
  have hvalve := tellsLines_review f .valve s
  unfold applyFlow
  rcases hr : s.review f .valve with ⟨_ | valve, s₁⟩ <;> rw [hr] at hvalve
  · exact hvalve
  · have hpump := hvalve.trans (tellsLines_review f .pump s₁)
    simp only
    rcases hr : s₁.review f .pump with ⟨_ | pump, s₂⟩ <;> rw [hr] at hpump
    · exact hpump
    · have hmoved := hpump.trans (tellsLines_rebind ⟨valve.offset, pump.offset⟩ s₂)
      simp only
      rcases hr : s₂.rebind ⟨valve.offset, pump.offset⟩ with ⟨_ | ⟨⟩, s₃⟩ <;> rw [hr] at hmoved
      · exact hmoved
      · simp only
        have hgranted := (hmoved.trans (tellsLines_grant .valve valve s₃)).trans
          (tellsLines_grant .pump pump _)
        generalize (s₃.grant .valve valve).grant .pump pump = granted at hgranted ⊢
        exact hgranted.trans (.log .info _ { granted with timing := f.timing })

theorem tellsLines_loadFrom (d : Document) (s : Watering) : s.TellsLines (s.loadFrom d).2 := by
  unfold loadFrom
  split
  · exact .log ..
  · split
    · exact .refl s
    · split
      · exact .refl s
      · simp only
        split
        · exact (TellsLines.report .warn (by decide) s).trans (tellsLines_applyFlow ..)
        · exact tellsLines_applyFlow ..

end Watering

namespace Service

variable {s s₁ s₂ s' : Service}

/-- The service has told nothing but lines on the way. -/
def TellsLines (s s' : Service) : Prop := s.system.TellsLines s'.system

namespace TellsLines

theorem refl (s : Service) : s.TellsLines s := Watering.TellsLines.refl s.system

theorem trans (h : s.TellsLines s₁) (h' : s₁.TellsLines s₂) : s.TellsLines s₂ :=
  Watering.TellsLines.trans h h'

theorem log (level : Level) (text : String) (s : Service) :
    s.TellsLines (Irrigation.log level text s) := Watering.TellsLines.log level text s.system

theorem report (level : Level) {message : String} (h : OneLine message) (s : Service) :
    s.TellsLines (s.report level message) := Watering.TellsLines.reported "Service" level h s.system

end TellsLines

/-! ## Watering commands -/

theorem tellsLines_clampReported {what : String} (h : OneLine what) (value : Int) (max : Nat)
    (s : Service) : s.TellsLines (s.clampReported what value max).2 := by
  unfold clampReported
  simp only
  split
  · exact .refl s
  · exact .report .warn (by simp +decide [h]) s

theorem tellsLines_setDuration (i : Interval) (ms : Int) (s : Service) :
    s.TellsLines (s.setDuration i ms) := by
  have hlabel : OneLine i.label := by cases i <;> decide
  exact (tellsLines_clampReported hlabel ms _ s).trans (.log .info _ _)

theorem tellsLines_setLine (r : Role) (line : Int) (s : Service) :
    s.TellsLines (s.setLine r line).2 := by
  have hclamped := tellsLines_clampReported (oneLine_roleLabel r) line s.limits.maxPinOffset.toNat s
  unfold setLine
  generalize s.clampReported r.label line s.limits.maxPinOffset.toNat = clamped at hclamped
  obtain ⟨n, s₁⟩ := clamped
  have hmoved : s.TellsLines { s₁ with system := (s₁.system.move r (.ofNat n)).2 } :=
    hclamped.trans (Watering.tellsLines_rebind ..)
  simp only
  rcases hr : s₁.system.move r (.ofNat n) with ⟨e | _, system⟩ <;> rw [hr] at hmoved
  · exact hmoved.trans (.report .error (by simp +decide) _)
  · exact hmoved

/-- **A command** tells lines only, if the flow that it may name is one. -/
theorem tellsLines_handle {c : WateringCommand}
    (hflow : ∀ name, c = .start (some name) → OneLine name) (s : Service) :
    s.TellsLines (s.handle c).2 := by
  cases c with
  | start flow =>
    exact Watering.tellsLines_start (fun name hname => hflow name (congrArg _ hname)) s.system
  | stop => exact Watering.tellsLines_stop .shutdown s.system
  | setDuration i ms => exact tellsLines_setDuration i ms s
  | setLine r line => exact tellsLines_setLine r line s
  | enable r on => exact Watering.tellsLines_enable r on s.system

theorem tellsLines_handleAll {cs : List WateringCommand}
    (hflow : ∀ name, .start (some name) ∈ cs → OneLine name) (s : Service) :
    s.TellsLines (s.handleAll cs).2 := by
  induction cs generalizing s with
  | nil => exact .refl s
  | cons c rest ih =>
    have hc := tellsLines_handle (fun name hname => hflow name (hname ▸ List.mem_cons_self)) s
    unfold handleAll
    rcases hr : s.handle c with ⟨_ | _, s₁⟩ <;> rw [hr] at hc
    · exact hc
    · exact hc.trans (ih (fun name hname => hflow name (List.mem_cons_of_mem c hname)) s₁)

/-- What fails of watering commands is a move, and that is told in one line. -/
theorem failsOnly_handleAll (cs : List WateringCommand) (s : Service) :
    FailsOnly (fun e => OneLine e.message) (s.handleAll cs).1 := by
  induction cs generalizing s with
  | nil => exact .ok _
  | cons c rest ih =>
    have hc : FailsOnly (fun e => OneLine e.message) (s.handle c).1 := by
      cases c with
      | setLine r line =>
        simp only [handle, setLine]
        split
        · exact .ok _
        · exact .error (Error.oneLine_line _)
      | _ => exact .ok _
    unfold handleAll
    rcases hr : s.handle c with ⟨_ | _, s₁⟩ <;> rw [hr] at hc
    · exact hc
    · exact ih s₁

theorem tellsLines_stop (origin : StopOrigin) (s : Service) :
    s.TellsLines (s.onSystem (·.stop origin)) := Watering.tellsLines_stop origin s.system

theorem tellsLines_abort (s : Service) : s.TellsLines s.abort :=
  ((TellsLines.report .warn (by decide) s).trans (tellsLines_stop .emergencyAbort _)).trans
    (.report .warn (by decide) _)

theorem tellsLines_shutdown (s : Service) : s.TellsLines s.shutdown :=
  (TellsLines.log ..).trans (tellsLines_stop .shutdown _)

/-! ## Projects -/

theorem tellsLines_ofFile (content : Except FileError String) (s : Service) :
    s.TellsLines (Document.ofFile content s).2 := by
  have htitle (d : Document) : s.TellsLines (d.fixTitle s).2 := by
    unfold Document.fixTitle
    split
    · exact .refl s
    · exact .log ..
  have hfix (d : Document) : s.TellsLines (d.fix s).2.2 := by
    unfold Document.fix
    simp only
    split
    · exact htitle d
    · simp only
      split
      · exact (htitle d).trans (.log ..)
      · exact htitle d
  unfold Document.ofFile
  split
  · exact .refl s
  · split
    · exact .refl s
    · next d _ =>
      have h := hfix d
      rcases hr : d.fix s with ⟨_ | _, d', s₁⟩ <;> rw [hr] at h <;> exact h

theorem tellsLines_loaded (path : String) (content : Except FileError String) (s : Service) :
    s.TellsLines (s.loaded path content).2 := by
  have hread := (TellsLines.log .info s!"Project: loading {path}" s).trans
    (tellsLines_ofFile content _)
  unfold loaded
  rcases hr : Document.ofFile content (log .info s!"Project: loading {path}" s) with
    ⟨_ | d, s₁⟩ <;> rw [hr] at hread
  · exact hread
  · have hload : s.TellsLines { s₁ with system := (s₁.system.loadFrom d).2 } :=
      hread.trans (Watering.tellsLines_loadFrom d s₁.system)
    simp only [adopt]
    rcases hl : s₁.system.loadFrom d with ⟨_ | _, system⟩ <;> rw [hl] at hload
    · exact hload
    · exact hload.trans (.log .info _ { s₁ with system })

theorem tellsLines_storeSettings (s : Service) : s.TellsLines s.storeSettings.2 :=
  Watering.tellsLines_saveTo (s.project.getD (.new unknownTitle)) s.system

/-! ## Lines of the console -/

variable {accesses : List FileAccess} {result : Except Error Unit}
  {outcome : Except Error Outcome} {path : Option String} {c : ConsoleCommand}

theorem tells_of_load {path : String}
    (h : (s.loadProject path).Runs accesses (result, s')) :
    s.TellsLines s' ∧ FailsOnly (Error.IsPlainOr (QuotesFrom accesses)) result := by
  rw [loadProject_eq] at h
  cases h with
  | @read _ _ content _ _ hdone =>
    obtain ⟨rfl, rfl, rfl⟩ := FileTask.done_pair_inv hdone
    refine ⟨tellsLines_loaded path content s, (failsOnly_loaded path content s).mono fun e he => ?_⟩
    exact he.imp id fun ⟨text, htext⟩ => ⟨text, _, List.mem_singleton_self _, htext⟩

theorem tells_of_save (h : (s.saveProject path).Runs accesses (result, s')) :
    s.TellsLines s' ∧ FailsOnly (Error.IsPlainOr (QuotesFrom accesses)) result := by
  have hstored := tellsLines_storeSettings s
  unfold saveProject Document.save FileTask.writeText at h
  simp only at h
  cases h with
  | @write _ _ _ written _ _ hdone =>
    cases written with
    | ok u =>
      obtain ⟨rfl, rfl, rfl⟩ := FileTask.done_pair_inv hdone
      exact ⟨hstored.trans (.log ..), .ok _⟩
    | error e =>
      obtain ⟨rfl, rfl, rfl⟩ := FileTask.done_pair_inv hdone
      refine ⟨hstored, .error (e.oneLine_or.imp Error.oneLine_file ?_)⟩
      rintro ⟨text, rfl⟩
      exact ⟨text, _, List.mem_singleton_self _, .unwritten ..⟩

/-- **A command of the console** tells lines only, if the flow that it may name is one. If it fails,
the error is told in one line, or it quotes a text. -/
theorem tells_of_execute
    (hflow : ∀ o name, c = .watering o → .start (some name) ∈ o.commands → OneLine name)
    (h : (s.execute c).Runs accesses (outcome, s')) :
    s.TellsLines s' ∧ FailsOnly (Error.IsPlainOr (QuotesFrom accesses)) outcome := by
  match c with
  | .watering o =>
    obtain ⟨rfl, rfl, rfl⟩ := FileTask.done_pair_inv h
    exact ⟨tellsLines_handleAll (fun name => hflow o name rfl) s,
      ((failsOnly_handleAll o.commands s).mono fun e he => .inl he).map _⟩
  | .project (.load path) =>
    obtain ⟨⟨result, s₁⟩, hload, heq⟩ := FileTask.map_inv h
    obtain ⟨rfl, rfl⟩ := Prod.mk.inj heq
    exact (tells_of_load hload).imp id fun hfails => hfails.map _
  | .project (.save path) =>
    obtain ⟨⟨result, s₁⟩, hsave, heq⟩ := FileTask.map_inv h
    obtain ⟨rfl, rfl⟩ := Prod.mk.inj heq
    exact (tells_of_save hsave).imp id fun hfails => hfails.map _
  | .abort =>
    obtain ⟨rfl, rfl, rfl⟩ := FileTask.done_pair_inv h
    exact ⟨tellsLines_abort s, .ok _⟩
  | .exit =>
    obtain ⟨rfl, rfl, rfl⟩ := FileTask.done_pair_inv h
    exact ⟨tellsLines_shutdown s, .ok _⟩
  | .status | .version =>
    obtain ⟨rfl, rfl, rfl⟩ := FileTask.done_pair_inv h
    exact ⟨.refl _, .ok _⟩

end Service

/-- An event is told in one line, or it is an error that quotes a text. -/
inductive Event.ToldOver (accesses : List FileAccess) : Event → Prop
  | plain {event : Event} (h : OneLine event.render) : ToldOver accesses event
  | quoting {e : Error} {text : String} (h : QuotesFrom accesses e text) :
    ToldOver accesses (.notice .error e.message)

/-- If an entry tells an event, it is told in one line, or it is an error that quotes a text. -/
def Effect.ToldOver (accesses : List FileAccess) : Effect → Prop
  | .emitted event => event.ToldOver accesses
  | _ => True

theorem Effect.TellsLine.toldOver {e : Effect} (h : e.TellsLine) (accesses : List FileAccess) :
    e.ToldOver accesses := by
  cases e with
  | emitted event => exact .plain h
  | _ => trivial

theorem Effect.ToldOver.mono {e : Effect} {accesses more : List FileAccess}
    (h : e.ToldOver accesses) (hsub : accesses ⊆ more) : e.ToldOver more := by
  cases e with
  | emitted event =>
    cases h with
    | plain h => exact .plain h
    | quoting h =>
      obtain ⟨access, haccess, hquotes⟩ := h
      exact .quoting ⟨access, hsub haccess, hquotes⟩
  | _ => trivial

theorem UsageError.toldOver_answer (e : UsageError) {accesses : List FileAccess} :
    e.answer.ToldOver accesses := by
  cases e <;> trivial

namespace Service

/-- What the service has told on the way. -/
def Tells (accesses : List FileAccess) (s s' : Service) : Prop :=
  s.system.rig.Adds (fun x => x.2.ToldOver accesses) s'.system.rig

namespace Tells

variable {accesses : List FileAccess} {s s₁ s₂ : Service}

theorem of_lines (h : s.TellsLines s₁) : s.Tells accesses s₁ :=
  Rig.Adds.mono h fun _ hx => hx.toldOver accesses

theorem trans (h : s.Tells accesses s₁) (h' : s₁.Tells accesses s₂) : s.Tells accesses s₂ :=
  Rig.Adds.trans h h'

theorem record {e : Effect} (he : e.ToldOver accesses) (s : Service) :
    s.Tells accesses (Irrigation.record s e) := Rig.Adds.record he

theorem failure {e : Error} (he : e.IsPlainOr (QuotesFrom accesses)) (s : Service) :
    s.Tells accesses (s.tellFailure e) := by
  refine (of_lines (.log ..)).trans (record ?_ _)
  rcases he with he | ⟨text, he⟩
  · exact .plain (Event.oneLine_render_notice.mpr he)
  · exact .quoting he

end Tells

/-- **A line of the console**, whatever it is, tells lines only, and perhaps an error that quotes a
text. -/
theorem tells_of_obey {s s' : Service} {line : String} {accesses : List FileAccess} {leave : Bool}
    (h : (s.obey line).Runs accesses (leave, s')) : s.Tells accesses s' := by
  unfold obey at h
  simp only at h
  split at h
  · obtain ⟨rfl, rfl, rfl⟩ := FileTask.done_pair_inv h
    exact .of_lines (.refl _)
  · split at h
    · next e _ =>
      obtain ⟨rfl, rfl, rfl⟩ := FileTask.done_pair_inv h
      exact .record (UsageError.toldOver_answer e) _
    · next c hc =>
      obtain ⟨⟨outcome, s₁⟩, first, rest, hexecute, hdone, rfl⟩ := FileTask.bind_inv h
      obtain ⟨hlines, hfails⟩ := tells_of_execute
        (fun o name ho => ConsoleCommand.oneLine_flow (ho ▸ hc)) hexecute
      have hlines : s.Tells first s₁ := .of_lines hlines
      rcases outcome with e | _ | text | _ <;>
        (obtain ⟨rfl, rfl, rfl⟩ := FileTask.done_pair_inv hdone
         rw [List.append_nil])
      · exact hlines.trans (.failure (hfails e rfl) s₁)
      · exact hlines
      · exact hlines.trans (.record (e := .printed text) trivial s₁)
      · exact hlines.trans (.record (e := .printed "Goodbye.") trivial s₁)

end Service

end Irrigation
