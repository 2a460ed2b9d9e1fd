import Irrigation.Event
import Irrigation.Proofs.Text.Breaks

/-!
# Texts of events

The text that the operator reads for an event is a word for the kind of the event, a bar, and what
there is to say (`Event.render_eq`). It is one line unless the event is a notice with a message that
is none (`Event.oneLine_render`), and an event that is no notice is told by its text alone
(`Event.eq_of_render`).
-/

namespace Irrigation

open Text (OneLine breaks)

@[simp] theorem CycleState.oneLine_name (state : CycleState) : OneLine state.name := by
  cases state <;> decide

namespace Event

/-! ## The parts of a text -/

/-- The word that the text of an event begins with. -/
def tag : Event → String
  | .started => "START"
  | .stateChanged .. => "STATE"
  | .cycleCompleted _ => "CYCLE"
  | .stopped _ => "STOP "
  | .notice level _ => level.tag

/-- What the text of an event says behind the word. -/
def body : Event → String
  | .started => s!"watering job started (flow '{cycledFlow}')"
  | .stateChanged before after => s!"{before.name} -> {after.name}"
  | .cycleCompleted n => s!"{n} completed"
  | .stopped cycles => s!"watering job ended after {cycles} cycle(s)"
  | .notice _ message => message

theorem render_eq (e : Event) : e.render = e.tag ++ " | " ++ e.body := by
  cases e with
  | started => decide
  | stateChanged before after =>
    change "STATE | " ++ before.name ++ " -> " ++ after.name =
      "STATE" ++ " | " ++ (before.name ++ " -> " ++ after.name)
    simp [String.append_assoc]
  | cycleCompleted n =>
    change "CYCLE | " ++ toString n ++ " completed" =
      "CYCLE" ++ " | " ++ (toString n ++ " completed")
    simp [String.append_assoc]
  | stopped cycles =>
    have hopen : "STOP  | watering job ended after " =
      "STOP " ++ " | " ++ "watering job ended after " := by decide
    change "STOP  | watering job ended after " ++ toString cycles ++ " cycle(s)" =
      "STOP " ++ " | " ++ ("watering job ended after " ++ toString cycles ++ " cycle(s)")
    rw [hopen]
    simp only [String.append_assoc]
  | notice level message => rfl

/-- All words that the text of an event may begin with. -/
def tags : List String := ["START", "STATE", "CYCLE", "STOP ", "ERROR", "WARN ", "INFO "]

theorem tag_mem (e : Event) : e.tag ∈ tags := by
  cases e with
  | started => decide
  | stateChanged before after => exact (by decide : "STATE" ∈ tags)
  | cycleCompleted n => exact (by decide : "CYCLE" ∈ tags)
  | stopped cycles => exact (by decide : "STOP " ∈ tags)
  | notice level message =>
    change level.tag ∈ tags
    cases level <;> decide

/-- Each of them is a line, and all are five characters long. -/
theorem tags_spec : ∀ word ∈ tags, OneLine word ∧ word.toList.length = 5 := by decide

/-! ## Lines -/

/-- The text of an event is broken where what it says is. -/
theorem breaks_render (e : Event) : breaks e.render = breaks e.body := by
  have hbar : OneLine " | " := by decide
  have htag : OneLine e.tag := (tags_spec _ e.tag_mem).1
  rw [render_eq, Text.breaks_behind (Text.oneLine_append.mpr ⟨htag, hbar⟩)]

/-- Every event but a notice is a line. -/
theorem oneLine_render {e : Event} (h : ∀ level message, e ≠ .notice level message) :
    OneLine e.render := by
  have hbody : OneLine e.body := by
    cases e with
    | started => decide
    | stateChanged before after =>
      have hwords : OneLine " -> " := by decide
      change OneLine (before.name ++ " -> " ++ after.name)
      simp [hwords]
    | cycleCompleted n =>
      have hwords : OneLine " completed" := by decide
      change OneLine (toString n ++ " completed")
      simp [hwords]
    | stopped cycles =>
      have hwords : OneLine "watering job ended after " ∧ OneLine " cycle(s)" := by decide
      change OneLine ("watering job ended after " ++ toString cycles ++ " cycle(s)")
      simp [hwords]
    | notice level message => exact absurd rfl (h level message)
  exact (breaks_render e).trans hbody

theorem oneLine_render_notice {level : Level} {message : String} :
    OneLine (notice level message).render ↔ OneLine message := by
  rw [OneLine, breaks_render]
  rfl

/-! ## Texts that tell what happened -/

/-- Texts that are alike begin with the same word and say the same. -/
theorem render_inj {e e' : Event} (h : e.render = e'.render) :
    e.tag = e'.tag ∧ e.body = e'.body := by
  have hlength : e.tag.toList.length = e'.tag.toList.length :=
    (tags_spec _ e.tag_mem).2.trans (tags_spec _ e'.tag_mem).2.symm
  have hchars : e.tag.toList ++ (" | ".toList ++ e.body.toList) =
      e'.tag.toList ++ (" | ".toList ++ e'.body.toList) := by
    simpa only [render_eq, ← String.toList_inj, String.toList_append, List.append_assoc] using h
  obtain ⟨htag, hrest⟩ := List.append_inj hchars hlength
  exact ⟨String.toList_inj.mp htag, String.toList_inj.mp (List.append_cancel_left hrest)⟩

/-- All moves of a job from one state to another. -/
def moves : List (CycleState × CycleState) :=
  CycleState.all.flatMap fun before => CycleState.all.map fun after => (before, after)

/-- The text of a move tells which it is. -/
theorem find?_moves (before after : CycleState) :
    moves.find? (fun m => (stateChanged m.1 m.2).body == (stateChanged before after).body) =
      some (before, after) := by
  cases before <;> cases after <;> decide

/-- The word of a notice is that of no event of another kind. -/
theorem not_notice_of_tag {e e' : Event} (h : ∀ level message, e ≠ .notice level message)
    (htag : e.tag = e'.tag) (level : Level) (message : String) : e' ≠ .notice level message := by
  rintro rfl
  have hlevel : level.tag ∉ ["START", "STATE", "CYCLE", "STOP "] := by cases level <;> decide
  have hword : e.tag ∈ ["START", "STATE", "CYCLE", "STOP "] := by
    cases e with
    | notice level message => exact absurd rfl (h level message)
    | _ => simp [tag]
  rw [htag] at hword
  exact hlevel hword

theorem repr_inj {m n : Nat} (h : m.repr = n.repr) : m = n := by
  have hdigits := congrArg (fun text => Nat.ofDigitChars 10 text.toList 0) h
  simpa only [Nat.toList_repr, Nat.ofDigitChars_ten_toDigits] using hdigits

/-- **The text of an event that is no notice** is that of no other event. -/
theorem eq_of_render {e e' : Event} (h : ∀ level message, e ≠ .notice level message)
    (hrender : e.render = e'.render) : e = e' := by
  obtain ⟨htag, hbody⟩ := render_inj hrender
  have h' := not_notice_of_tag h htag
  cases e with
  | started =>
    cases e' with
    | started => rfl
    | notice level message => exact absurd rfl (h' level message)
    | _ => exact absurd htag (by simp [tag])
  | stateChanged before after =>
    cases e' with
    | stateChanged before' after' =>
      have hmoves := find?_moves before after
      rw [hbody, find?_moves] at hmoves
      obtain ⟨rfl, rfl⟩ := Prod.mk.inj (Option.some.inj hmoves)
      rfl
    | notice level message => exact absurd rfl (h' level message)
    | _ => exact absurd htag (by simp [tag])
  | cycleCompleted n =>
    cases e' with
    | cycleCompleted n' => rw [repr_inj ((String.append_left_inj _).mp hbody)]
    | notice level message => exact absurd rfl (h' level message)
    | _ => exact absurd htag (by simp [tag])
  | stopped cycles =>
    cases e' with
    | stopped cycles' =>
      rw [repr_inj ((String.append_right_inj _).mp ((String.append_left_inj _).mp hbody))]
    | notice level message => exact absurd rfl (h' level message)
    | _ => exact absurd htag (by simp [tag])
  | notice level message => exact absurd rfl (h level message)

end Event

end Irrigation
