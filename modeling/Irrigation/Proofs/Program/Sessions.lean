import Irrigation.Proofs.Service.Notices
import Irrigation.Proofs.World.Record

/-!
# What the operator reads

A session of the program begins with its arguments, and then lines of the console are carried out
and the worker takes steps, in any order, until the console is left or cannot be read any more; what
the files hold is left open (`Session`). The events are written one after the other, each with a
line feed behind it. So the operator reads one line for each event, and no line of an event that did
not happen, as long as no text that a file or the operating system has given breaks a line
(`Session.reads_what_happens`). The mode of a project can be such a text, since it is quoted as it
stands: then the operator reads whatever lines the file has in it (`Session.reads_forged_stop`).
-/

namespace Irrigation

open Text (OneLine breaks lines)
open Project

/-! ## Events on the output -/

/-- What events add to the output. -/
def outputOfEvents (events : List Event) : String := outputOf (events.map .emitted)

theorem outputOfEvents_cons (e : Event) (events : List Event) :
    outputOfEvents (e :: events) = e.render ++ "\n" ++ outputOfEvents events := by
  simp [outputOfEvents, outputOf, Effect.toOutput, Effect.line]

/-- The operator reads the lines of each event, one event after the other. -/
theorem lines_outputOfEvents (events : List Event) :
    lines (outputOfEvents events) = events.flatMap (fun e => lines e.render) ++ [""] := by
  induction events with
  | nil => rfl
  | cons e rest ih =>
    rw [outputOfEvents_cons, Text.lines_append, ih, List.flatMap_cons, List.append_assoc]

/-- Events that are lines are read as they are. -/
theorem lines_of_oneLines {events : List Event} (h : ∀ e ∈ events, OneLine e.render) :
    lines (outputOfEvents events) = events.map Event.render ++ [""] := by
  rw [lines_outputOfEvents, List.flatMap_congr fun e he => Text.lines_of_oneLine (h e he),
    List.map_eq_flatMap]

namespace Run

/-- What has happened in a run so far. -/
def journal : Run → List Effect
  | .active s => s.journal
  | .over _ journal => journal

/-- The events of a run, in the order in which they were told. -/
def events (run : Run) : List Event := run.journal.filterMap Effect.event?

end Run

/-! ## Sessions -/

/-- A run that arguments and then lines of the console and steps of the worker lead to. The accesses
are the uses of files up to then, with what came of them. -/
inductive Session (a : Arguments) : List FileAccess → Run → Prop
  /-- The run begins, and may be over then. -/
  | started {accesses : List FileAccess} {run : Run} (h : (Run.start a).Runs accesses run) :
    Session a accesses run
  /-- The worker takes a step. -/
  | worked {accesses : List FileAccess} {s : Service} (h : Session a accesses (.active s)) :
    Session a accesses (.active (s.onSystem Watering.step))
  /-- A line is carried out. -/
  | obeyed {accesses more : List FileAccess} {s s' : Service} {line : String}
    (h : Session a accesses (.active s)) (hline : (s.obey line).Runs more (false, s')) :
    Session a (accesses ++ more) (.active s')
  /-- A line leaves the console. -/
  | left {accesses more : List FileAccess} {s s' : Service} {line : String}
    (h : Session a accesses (.active s)) (hline : (s.obey line).Runs more (true, s')) :
    Session a (accesses ++ more) (.close s')
  /-- There are no more lines. -/
  | ended {accesses : List FileAccess} {s : Service} (h : Session a accesses (.active s)) :
    Session a accesses (.close s.finish)
  /-- A line cannot be read. -/
  | broken {accesses : List FileAccess} {s : Service} (e : FileError)
    (h : Session a accesses (.active s)) :
    Session a accesses (.abandon (Run.unreadable e) s)

/-! ## What has been told -/

/-- Whatever a rig has noted of events is told in one line, or it is an error that quotes a text. -/
def Rig.Told (accesses : List FileAccess) (r : Rig) : Prop :=
  ∀ e ∈ r.journal.map Prod.snd, e.ToldOver accesses

/-- The same of a run. -/
def Run.Told (accesses : List FileAccess) (run : Run) : Prop :=
  ∀ e ∈ run.journal, e.ToldOver accesses

namespace Rig.Told

variable {accesses more : List FileAccess} {r r' : Rig}

theorem adds (h : r.Told accesses) (h' : r.Adds (fun x => x.2.ToldOver accesses) r') :
    r'.Told accesses := by
  obtain ⟨new, hnew, hall⟩ := h'
  rw [Told, hnew, List.map_append]
  refine List.forall_mem_append.mpr ⟨h, fun e he => ?_⟩
  obtain ⟨x, hx, rfl⟩ := List.mem_map.mp he
  exact hall x hx

theorem lines (h : r.Told accesses) (h' : r.TellsLines r') : r'.Told accesses :=
  h.adds (h'.mono fun _ hx => hx.toldOver accesses)

/-- Something is told with more uses of files. -/
theorem further (h : r.Told accesses) (h' : r.Adds (fun x => x.2.ToldOver more) r') :
    r'.Told (accesses ++ more) := by
  have hold : r.Told (accesses ++ more) := fun e he => (h e he).mono (List.subset_append_left ..)
  exact hold.adds (h'.mono fun _ hx => hx.mono (List.subset_append_right ..))

end Rig.Told

namespace Run

variable {accesses : List FileAccess} {s : Service}

theorem told_fail {journal : List Effect} (h : ∀ e ∈ journal, e.ToldOver accesses) (f : Failure) :
    (fail f journal).Told accesses :=
  List.forall_mem_append.mpr ⟨h, List.forall_mem_singleton.mpr trivial⟩

theorem told_close (h : s.system.rig.Told accesses) : (close s).Told accesses :=
  h.lines (Watering.tellsLines_retire s.system)

theorem told_abandon (h : s.system.rig.Told accesses) (f : Failure) :
    (abandon f s).Told accesses := told_fail (told_close h) f

theorem told_invite (h : s.system.rig.Told accesses) : (invite s).Told accesses :=
  h.adds (Service.Tells.record (e := .printed _) trivial s)

/-! ## The beginning -/

/-- The chip and the greeting tell nothing, and the wiring tells lines only, whether it succeeds or
not. -/
theorem told_wire (accesses : List FileAccess) (c : Config) : match wire c with
    | .ok s => s.system.rig.Told accesses
    | .error (_, rig) => rig.Told accesses := by
  let rig : Rig :=
    { Rig.openChip c.chipPath Wiring.chipLines with
      journal := (.caller, greeting) :: (Rig.openChip c.chipPath Wiring.chipLines).journal }
  have hopened : rig.Told accesses :=
    List.forall_mem_cons.mpr ⟨trivial, List.forall_mem_singleton.mpr trivial⟩
  have hwired := hopened.lines (Rig.handled_wire c.pins rig).tellsLines
  unfold wire Watering.wire
  simp only
  rcases hr : Controller.wire c.pins rig with ⟨e | hardware, rig'⟩ <;> rw [hr] at hwired
  · exact hwired
  · have hvalve := Watering.tellsLines_enable .valve c.enabled.valve
      { rig := rig', hardware, timing := c.timing }
    exact hwired.lines (hvalve.trans (Watering.tellsLines_enable .pump c.enabled.pump _))

theorem told_startWith {c : Config} {project : Option String} {run : Run}
    (h : (startWith c project).Runs accesses run) : run.Told accesses := by
  have hwired := told_wire accesses c
  unfold startWith at h
  split at h
  · next e rig heq =>
    rw [heq] at hwired
    obtain ⟨rfl, rfl⟩ := FileTask.done_inv h
    exact told_fail hwired _
  · next s heq =>
    rw [heq] at hwired
    split at h
    · obtain ⟨rfl, rfl⟩ := FileTask.done_inv h
      exact told_invite hwired
    · obtain ⟨⟨result, s'⟩, first, rest, hload, hdone, rfl⟩ := FileTask.bind_inv h
      have hloaded := hwired.lines (Service.tells_of_load hload).1
      cases result with
      | ok u =>
        obtain ⟨-, rfl⟩ := FileTask.done_inv hdone
        exact told_invite hloaded
      | error e =>
        obtain ⟨-, rfl⟩ := FileTask.done_inv hdone
        exact told_abandon hloaded _

theorem told_start {a : Arguments} {run : Run} (h : (start a).Runs accesses run) :
    run.Told accesses := by
  unfold start at h
  split at h
  · exact told_startWith h
  · obtain ⟨result, first, rest, -, hrest, rfl⟩ := FileTask.bind_inv h
    cases result with
    | ok c =>
      intro e he
      exact (told_startWith hrest e he).mono (List.subset_append_right ..)
    | error e =>
      obtain ⟨-, rfl⟩ := FileTask.done_inv hrest
      have hgreeting : greeting.ToldOver (first ++ rest) := trivial
      exact told_fail (List.forall_mem_singleton.mpr hgreeting) _

end Run

/-- **What a session has told** are lines, but for errors that quote texts from its files. -/
theorem Session.told {a : Arguments} {accesses : List FileAccess} {run : Run}
    (h : Session a accesses run) : run.Told accesses := by
  induction h with
  | started h => exact Run.told_start h
  | worked _ ih => exact Rig.Told.lines ih (Watering.tellsLines_step _)
  | obeyed _ hline ih => exact Rig.Told.further ih (Service.tells_of_obey hline)
  | left _ hline ih => exact Run.told_close (Rig.Told.further ih (Service.tells_of_obey hline))
  | @ended _ s _ ih =>
    have hlines := (Service.TellsLines.log .info "Console: end of input, tearing down" s).trans
      (Service.tellsLines_shutdown _)
    exact Run.told_close (Rig.Told.lines ih hlines)
  | broken e _ ih => exact Run.told_abandon ih _

/-! ## What is read -/

/-- What it means that the operator reads what happens in a run. -/
structure Run.Reads (accesses : List FileAccess) (run : Run) : Prop where
  /-- The text of an event begins with the word for its kind. -/
  tagged : ∀ e ∈ run.events, ∃ body, e.render = e.tag ++ " | " ++ body
  /-- The lines that the operator reads are those of the events, in the order in which they were
  told. -/
  ordered : lines (outputOfEvents run.events) =
    run.events.flatMap (fun e => lines e.render) ++ [""]
  /-- An event is told in one line, or it is an error that quotes a text which a file or the
  operating system has given, and is broken where the text is. -/
  plain : ∀ e ∈ run.events, OneLine e.render ∨ ∃ error text, QuotesFrom accesses error text ∧
    e = .notice .error error.message ∧ breaks e.render = breaks text
  /-- If no such text breaks a line, the operator reads one line for each event. -/
  faithful : (∀ error text, QuotesFrom accesses error text → OneLine text) →
    lines (outputOfEvents run.events) = run.events.map Event.render ++ [""]
  /-- Then the line of an event that is no notice is read only if the event happened. -/
  genuine : (∀ error text, QuotesFrom accesses error text → OneLine text) →
    ∀ e : Event, (∀ level message, e ≠ .notice level message) →
      e.render ∈ lines (outputOfEvents run.events) → e ∈ run.events

theorem QuotesFrom.breaks_render {accesses : List FileAccess} {e : Error} {text : String}
    (h : QuotesFrom accesses e text) :
    breaks (Event.notice .error e.message).render = breaks text := by
  obtain ⟨access, -, hquotes⟩ := h
  exact (Event.breaks_render _).trans hquotes.breaks_message

theorem Event.ToldOver.oneLine {accesses : List FileAccess} {e : Event} (h : e.ToldOver accesses)
    (hquoted : ∀ error text, QuotesFrom accesses error text → OneLine text) :
    OneLine e.render := by
  cases h with
  | plain h => exact h
  | quoting h => exact h.breaks_render.trans (hquoted _ _ h)

namespace Session

/-- **The operator reads what happens**: the lines of each event, one event after the other. These
are one line for each, and no line of an event that did not happen, unless an error quotes a text
that breaks a line. -/
theorem reads_what_happens {a : Arguments} {accesses : List FileAccess} {run : Run}
    (h : Session a accesses run) : run.Reads accesses := by
  have htold : ∀ e ∈ run.events, e.ToldOver accesses := by
    intro e he
    obtain ⟨effect, heffect, hevent⟩ := List.mem_filterMap.mp he
    cases effect with
    | emitted event =>
      obtain rfl := Option.some.inj hevent
      exact h.told _ heffect
    | _ => cases hevent
  have hfaithful (hquoted : ∀ error text, QuotesFrom accesses error text → OneLine text) :
      lines (outputOfEvents run.events) = run.events.map Event.render ++ [""] :=
    lines_of_oneLines fun e he => (htold e he).oneLine hquoted
  constructor
  · exact fun e _ => ⟨e.body, e.render_eq⟩
  · exact lines_outputOfEvents run.events
  · intro e he
    cases htold e he with
    | plain hline => exact .inl hline
    | quoting hquotes => exact .inr ⟨_, _, hquotes, rfl, hquotes.breaks_render⟩
  · exact hfaithful
  · intro hquoted e hnotice hread
    rw [hfaithful hquoted] at hread
    rcases List.mem_append.mp hread with hread | hread
    · obtain ⟨e', he', hrender⟩ := List.mem_map.mp hread
      exact Event.eq_of_render hnotice hrender.symm ▸ he'
    · have hempty : e.tag ++ " | " ++ e.body = "" :=
        e.render_eq.symm.trans (List.mem_singleton.mp hread)
      simp at hempty

end Session

/-! ### A mode that looks like the end of a job -/

/-- A project whose mode contains the text for the end of a job on a line of its own. -/
def forgedProject : String :=
  "\x7b\"automaticWateringSystem\": \x7b\"mode\": " ++
    "\"x\\nSTOP  | watering job ended after 3 cycle(s)\\n\", \"flow\": \x7b" ++
    "\"activationTime\": 1, \"deactivationTime\": 1, \"deactivationSepTime\": 1, " ++
    "\"devices\": []\x7d\x7d\x7d"

/-- The service whose console has just been opened. -/
def opened? : Option Service :=
  match Run.start {} with
  | .done (.active s) => some s
  | _ => none

theorem start_of_opened {s : Service} (h : opened? = some s) :
    Run.start {} = .done (.active s) := by
  unfold opened? at h
  split at h
  · next s' heq =>
    obtain rfl := Option.some.inj h
    exact heq
  · cases h

/-- A line that loads a project which cannot be loaded. -/
theorem Service.runs_obey_load {line path : String} {content : Except FileError String}
    {s s' : Service} {e : Error} (hline : (Text.trim line).isEmpty = false)
    (hcommand : ConsoleCommand.ofLine (Text.trim line) = .ok (.project (.load path)))
    (hloaded : s.loaded path content = (.error e, s')) :
    (s.obey line).Runs [.read path content] (false, s'.tellFailure e) := by
  have hrun := runs_load s path content
  rw [hloaded] at hrun
  simp only [obey, hline, hcommand, Bool.false_eq_true, if_false]
  exact hrun.bind (.done _)

/-- The project is loaded: the operator reads that a job ended, though none was ever started. -/
theorem Session.reads_forged_stop : ∃ (accesses : List FileAccess) (run : Run),
    Session {} accesses run ∧ run.Reads accesses ∧ Event.stopped 3 ∉ run.events ∧
      (Event.stopped 3).render ∈ lines (outputOfEvents run.events) := by
  obtain ⟨s, hs, hfacts⟩ := (Option.any_eq_true (fun s : Service =>
    match s.loaded "evil.json" (.ok forgedProject) with
    | (.error e, s') => let run : Run := .active (s'.tellFailure e)
      decide (Event.stopped 3 ∉ run.events ∧
        (Event.stopped 3).render ∈ lines (outputOfEvents run.events))
    | _ => false) opened?).mp (by decide +kernel)
  split at hfacts
  · next e s' hloaded =>
    obtain ⟨hnever, hread⟩ := of_decide_eq_true hfacts
    have hopened : Session {} [] (.active s) := .started (by rw [start_of_opened hs]; exact .done _)
    have hobeyed : (s.obey "project --load evil.json").Runs _ (false, s'.tellFailure e) :=
      Service.runs_obey_load (by decide +kernel) (by decide +kernel) hloaded
    have hsession := hopened.obeyed hobeyed
    exact ⟨_, _, hsession, Session.reads_what_happens hsession, hnever, hread⟩
  · cases hfacts

end Irrigation
