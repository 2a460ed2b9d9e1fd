import Irrigation.Console.Command
import Mathlib.Data.List.Perm.Basic

/-!
# The commands of a watering line

The options of a line are turned into commands one by one. `WateringOptions.Asks` says which option
asks for which command, and `WateringCommand.rank` is the place of a command in a line: a stop, then
the lines, the flags of the valve, those of the pump, the durations, and a start. The commands of a
line are what its options ask for, in the order of their ranks, and no other list of commands is
(`WateringOptions.eq_commands`). The options can be read off them again
(`WateringOptions.ofCommands`). `WateringOptions.encodes_faithfully` puts this together.
-/

namespace Irrigation

/-- The place of a command among those of a line. -/
def WateringCommand.rank : WateringCommand → Nat
  | .stop => 0
  | .setLine .valve _ => 1
  | .setLine .pump _ => 2
  | .enable .valve true => 3
  | .enable .valve false => 4
  | .enable .pump true => 5
  | .enable .pump false => 6
  | .setDuration .activation _ => 7
  | .setDuration .deactivation _ => 8
  | .setDuration .separation _ => 9
  | .start _ => 10

namespace WateringOptions

open WateringCommand

variable {o o' : WateringOptions} {c : WateringCommand} {cs part : List WateringCommand} {n : Nat}

/-- The value given for a duration. -/
def duration? (o : WateringOptions) : Interval → Option Int
  | .activation => o.activation
  | .deactivation => o.deactivation
  | .separation => o.separation

/-- An option asks for a command. A start with an empty flow is one without a flow. -/
def Asks (o : WateringOptions) : WateringCommand → Prop
  | .start none => o.start = some ""
  | .start (some flow) => o.start = some flow ∧ flow ≠ ""
  | .stop => o.stop = true
  | .setDuration i ms => o.duration? i = some ms
  | .setLine r line => o.line.get r = some line
  | .enable r true => o.enable.get r = true
  | .enable r false => o.disable.get r = true

/-! ## What is in the list -/

theorem mem_ifSet {flag : Bool} {c' : WateringCommand} :
    c ∈ ifSet flag c' ↔ flag = true ∧ c = c' := by
  cases flag <;> simp [ifSet]

theorem mem_ifGiven {α : Type} {value : Option α} {f : α → WateringCommand} :
    c ∈ ifGiven value f ↔ ∃ a, value = some a ∧ c = f a := by
  cases value <;> simp [ifGiven]

/-- The flow that a start names: none if the given one is empty. -/
theorem eq_named_iff {name : String} {flow : Option String} :
    (flow = if name.isEmpty then none else some name) ↔
      name = flow.getD "" ∧ flow ≠ some "" := by
  simp only [String.isEmpty_iff]
  constructor
  · rintro rfl
    split
    · next hname => exact ⟨hname, nofun⟩
    · next hname => exact ⟨rfl, fun h => hname (Option.some.inj h)⟩
  · rintro ⟨rfl, hflow⟩
    cases flow with
    | none => rfl
    | some flow => exact (if_neg fun h => hflow (congrArg some h)).symm

/-- **A command is in the list exactly if an option asks for it.** -/
theorem mem_commands : c ∈ o.commands ↔ o.Asks c := by
  simp only [commands, List.mem_append, mem_ifSet, mem_ifGiven]
  cases c with
  | start flow =>
    simp only [reduceCtorEq, and_false, exists_false, false_or, WateringCommand.start.injEq,
      eq_named_iff]
    cases flow <;> simp [Asks]
  | stop => simp [Asks]
  | setDuration i ms => cases i <;> simp [Asks, duration?]
  | setLine r line => cases r <;> simp [Asks, Each.get]
  | enable r on => cases r <;> cases on <;> simp [Asks, Each.get]

/-! ## The order -/

/-- Commands in the order of their ranks, which are below `n`. -/
structure Ranked (n : Nat) (cs : List WateringCommand) : Prop where
  ordered : cs.Pairwise fun a b => a.rank < b.rank
  below : ∀ c ∈ cs, c.rank < n

theorem Ranked.nil : Ranked 0 [] := ⟨.nil, fun _ h => absurd h List.not_mem_nil⟩

/-- One command at most follows, of the next rank. -/
theorem Ranked.append (h : Ranked n cs) (hpart : part.length ≤ 1) (hrank : ∀ c ∈ part, c.rank = n) :
    Ranked (n + 1) (cs ++ part) where
  ordered := by
    refine List.pairwise_append.mpr ⟨h.ordered, ?_, fun a ha b hb => ?_⟩
    · match part, hpart with
      | [], _ => exact .nil
      | [c], _ => exact List.pairwise_singleton ..
    · rw [hrank b hb]
      exact h.below a ha
  below := by
    intro c hc
    rcases List.mem_append.mp hc with hc | hc
    · exact Nat.lt_succ_of_lt (h.below c hc)
    · rw [hrank c hc]
      exact Nat.lt_succ_self n

theorem Ranked.ifSet (h : Ranked n cs) (flag : Bool) (hc : c.rank = n) :
    Ranked (n + 1) (cs ++ ifSet flag c) := by
  refine h.append ?_ fun c' hc' => ?_
  · cases flag <;> simp [WateringOptions.ifSet]
  · rw [(mem_ifSet.mp hc').2, hc]

theorem Ranked.ifGiven {α : Type} {f : α → WateringCommand} (h : Ranked n cs) (value : Option α)
    (hf : ∀ a, (f a).rank = n) : Ranked (n + 1) (cs ++ ifGiven value f) := by
  refine h.append ?_ fun c' hc' => ?_
  · cases value <;> simp [WateringOptions.ifGiven]
  · obtain ⟨a, -, rfl⟩ := mem_ifGiven.mp hc'
    exact hf a

/-- **The commands of a line are in order.** -/
theorem ranked_commands (o : WateringOptions) : Ranked 11 o.commands :=
  (((((((((((Ranked.nil.ifSet o.stop rfl).ifGiven o.line.valve fun _ => rfl).ifGiven o.line.pump
    fun _ => rfl).ifSet o.enable.valve rfl).ifSet o.disable.valve rfl).ifSet o.enable.pump
    rfl).ifSet o.disable.pump rfl).ifGiven o.activation fun _ => rfl).ifGiven o.deactivation
    fun _ => rfl).ifGiven o.separation fun _ => rfl).ifGiven o.start fun _ => rfl)

theorem nodup_of_ordered (h : cs.Pairwise fun a b => a.rank < b.rank) : cs.Nodup :=
  h.imp fun hlt heq => absurd (heq ▸ hlt) (Nat.lt_irrefl _)

/-- **No other list has the same commands in this order.** -/
theorem eq_commands (hordered : cs.Pairwise fun a b => a.rank < b.rank)
    (hmem : ∀ c, c ∈ cs ↔ o.Asks c) : cs = o.commands := by
  have hperm : cs.Perm o.commands :=
    (List.perm_ext_iff_of_nodup (nodup_of_ordered hordered)
      (nodup_of_ordered o.ranked_commands.ordered)).mpr fun c => (hmem c).trans mem_commands.symm
  exact hperm.eq_of_pairwise (fun _ _ _ _ hab hba => absurd hab (Nat.lt_asymm hba)) hordered
    o.ranked_commands.ordered

/-! ## Reading the options off the commands -/

/-- The value for a duration that a command names. -/
def durationOf? (i : Interval) : WateringCommand → Option Int
  | .setDuration j ms => if j = i then some ms else none
  | _ => none

/-- The line for a device that a command names. -/
def lineOf? (r : Role) : WateringCommand → Option Int
  | .setLine r' n => if r' = r then some n else none
  | _ => none

/-- The flow that a command starts; empty if it names none. -/
def flowOf? : WateringCommand → Option String
  | .start flow => some (flow.getD "")
  | _ => none

/-- The options that a list of commands stands for. -/
def ofCommands (cs : List WateringCommand) : WateringOptions where
  start := cs.findSome? flowOf?
  stop := cs.contains .stop
  activation := cs.findSome? (durationOf? .activation)
  deactivation := cs.findSome? (durationOf? .deactivation)
  separation := cs.findSome? (durationOf? .separation)
  line := ⟨cs.findSome? (lineOf? .valve), cs.findSome? (lineOf? .pump)⟩
  enable := ⟨cs.contains (.enable .valve true), cs.contains (.enable .pump true)⟩
  disable := ⟨cs.contains (.enable .valve false), cs.contains (.enable .pump false)⟩

/-- What is looked for in the commands is found if an option asks for a command that has it. -/
theorem findSome?_eq {α : Type} {f : WateringCommand → Option α} {value : Option α}
    (hcs : ∀ c, c ∈ cs ↔ o.Asks c) (h : ∀ a, value = some a ↔ ∃ c, o.Asks c ∧ f c = some a) :
    cs.findSome? f = value := by
  cases hfound : cs.findSome? f with
  | some a =>
    obtain ⟨c, hc, hf⟩ := List.exists_of_findSome?_eq_some hfound
    exact ((h a).mpr ⟨c, (hcs c).mp hc, hf⟩).symm
  | none =>
    rw [List.findSome?_eq_none_iff] at hfound
    cases hvalue : value with
    | none => rfl
    | some a =>
      obtain ⟨c, hc, hf⟩ := (h a).mp hvalue
      rw [hfound c ((hcs c).mpr hc)] at hf
      cases hf

theorem findSome?_durationOf? (hcs : ∀ c, c ∈ cs ↔ o.Asks c) (i : Interval) :
    cs.findSome? (durationOf? i) = o.duration? i := by
  refine findSome?_eq hcs fun ms => ⟨fun h => ⟨.setDuration i ms, h, if_pos rfl⟩, ?_⟩
  rintro ⟨c, hc, hms⟩
  cases c with
  | setDuration j ms' =>
    obtain ⟨rfl, rfl⟩ : j = i ∧ ms' = ms := by simpa [durationOf?] using hms
    exact hc
  | _ => cases hms

theorem findSome?_lineOf? (hcs : ∀ c, c ∈ cs ↔ o.Asks c) (r : Role) :
    cs.findSome? (lineOf? r) = o.line.get r := by
  refine findSome?_eq hcs fun n => ⟨fun h => ⟨.setLine r n, h, if_pos rfl⟩, ?_⟩
  rintro ⟨c, hc, hn⟩
  cases c with
  | setLine r' n' =>
    obtain ⟨rfl, rfl⟩ : r' = r ∧ n' = n := by simpa [lineOf?] using hn
    exact hc
  | _ => cases hn

theorem findSome?_flowOf? (hcs : ∀ c, c ∈ cs ↔ o.Asks c) : cs.findSome? flowOf? = o.start := by
  refine findSome?_eq hcs fun flow => ⟨fun h => ?_, ?_⟩
  · by_cases hflow : flow = ""
    · subst hflow
      exact ⟨.start none, h, rfl⟩
    · exact ⟨.start (some flow), ⟨h, hflow⟩, rfl⟩
  · rintro ⟨c, hc, hflow⟩
    cases c with
    | start named =>
      obtain rfl := Option.some.inj hflow
      cases named with
      | none => exact hc
      | some name => exact hc.1
    | _ => cases hflow

theorem contains_eq {flag : Bool} (hcs : ∀ c, c ∈ cs ↔ o.Asks c) (h : o.Asks c ↔ flag = true) :
    cs.contains c = flag := by
  rw [Bool.eq_iff_iff, List.contains_iff_mem, hcs, h]

/-- The options are read off what they ask for, in whatever order it comes. -/
theorem ofCommands_eq (hcs : ∀ c, c ∈ cs ↔ o.Asks c) : ofCommands cs = o := by
  simp only [ofCommands, findSome?_durationOf? hcs, findSome?_lineOf? hcs, findSome?_flowOf? hcs]
  rw [contains_eq (c := .stop) hcs Iff.rfl, contains_eq (c := .enable .valve true) hcs Iff.rfl,
    contains_eq (c := .enable .pump true) hcs Iff.rfl,
    contains_eq (c := .enable .valve false) hcs Iff.rfl,
    contains_eq (c := .enable .pump false) hcs Iff.rfl]
  rfl

/-- **The options are read off the commands.** -/
theorem ofCommands_commands (o : WateringOptions) : ofCommands o.commands = o :=
  ofCommands_eq fun _ => mem_commands

/-! ## The encoding as a whole -/

/-- What it means that the commands of a line stand for its options. -/
structure Encodes (o : WateringOptions) : Prop where
  /-- There is a command exactly for each option that is given, with the value that is given. -/
  asked : ∀ c, c ∈ o.commands ↔ o.Asks c
  /-- It is there once. -/
  once : ∀ c, o.Asks c → o.commands.count c = 1
  /-- The commands are in order, and no two of them have the same place in it. -/
  ordered : o.commands.Pairwise fun a b => a.rank < b.rank
  /-- That is true of no other list of commands. -/
  only : ∀ cs : List WateringCommand, cs.Pairwise (fun a b => a.rank < b.rank) →
    (∀ c, c ∈ cs ↔ o.Asks c) → cs = o.commands
  /-- The options can be read off the commands. -/
  readBack : ofCommands o.commands = o
  /-- So other options have other commands. -/
  injective : ∀ o' : WateringOptions, o'.commands = o.commands → o' = o

/-- **The commands of a line stand for its options**, also where these contradict each other. -/
theorem encodes_faithfully (o : WateringOptions) : o.Encodes where
  asked := fun _ => mem_commands
  once := fun _ hc =>
    (nodup_of_ordered o.ranked_commands.ordered).count.trans (if_pos (mem_commands.mpr hc))
  ordered := o.ranked_commands.ordered
  only := fun _ => eq_commands
  readBack := ofCommands_commands o
  injective := by
    intro o' h
    rw [← ofCommands_commands o', h, ofCommands_commands]

example : WateringOptions.commands
    { stop := true, start := some "", separation := some (-5),
      enable := .both true, disable := ⟨true, false⟩, line := ⟨none, some 4⟩ } =
    [.stop, .setLine .pump 4, .enable .valve true, .enable .valve false, .enable .pump true,
      .setDuration .separation (-5), .start none] := rfl

end WateringOptions

end Irrigation
