import Irrigation.Output
import Mathlib.Data.List.Basic

/-!
# What an output remembers

An output keeps a copy of the state that its line had last, and a write may fail. To see that the
two do not drift apart, a `WatchedLine` refuses writes by any plan whatever, and keeps account of
every write. `Output.Remembers` says what was written, what the output remembers and at which level
the line is after any states that were asked for; it is kept by one more of them, whether the line
takes the write or not (`Output.Remembers.drive`). `Output.tells_last_state` says it of any row of
calls, and that a line that is no output is left alone.
-/

namespace Irrigation

namespace Output

/-! ## One call -/

section Drive

variable {σ : Type} [Lines σ] {o : Output} {on : Bool} {s s' : σ}

/-- A line that is no output is not written; all that is done is to say so. -/
theorem drive_of_input (h : o.direction = .input) (on : Bool) (s : σ) :
    ∃ text, o.drive on s = (o, log .warn text s) := by
  simp only [drive, h]
  exact ⟨_, rfl⟩

theorem drive_of_taken (h : o.direction = .output)
    (hwrite : Lines.write s o.offset (o.polarity.level on) = (true, s')) :
    o.drive on s = ({ o with active := on }, s') := by
  simp only [drive, h, hwrite]

theorem drive_of_refused (h : o.direction = .output)
    (hwrite : Lines.write s o.offset (o.polarity.level on) = (false, s')) :
    ∃ text, o.drive on s = (o, log .warn text s') := by
  simp only [drive, h, hwrite]
  exact ⟨_, rfl⟩

/-- An output and its line after some calls, each of which switches it on or off. -/
def switchAll (calls : List Bool) (p : Output × σ) : Output × σ :=
  calls.foldl (fun p on => p.1.switch on p.2) p

/-- An output that takes over its line and is then switched on and off. -/
def life (offset : Offset) (direction : Direction) (polarity : Polarity) (calls : List Bool)
    (s : σ) : Output × σ :=
  switchAll calls (claim offset direction polarity s)

end Drive

end Output

/-! ## A line under watch -/

/-- A line with a plan of which writes it refuses, counted from the first. Of every write it keeps
the level, and whether the line took it. -/
structure WatchedLine where
  line : TestLine
  refuses : Nat → Bool
  writes : List (Bool × Bool) := []

namespace WatchedLine

instance : Journaling WatchedLine := ⟨fun w e => { w with line := record w.line e }⟩

instance : Lines WatchedLine where
  write w n up :=
    let (taken, line) := Lines.write { w.line with failing := w.refuses w.writes.length } n up
    (taken, { w with line, writes := w.writes ++ [(up, taken)] })

end WatchedLine

/-- The last of some states that were asked for that the line took. -/
def lastTaken? (refuses : Nat → Bool) (asked : List Bool) : Option Bool :=
  (asked.zipIdx.filterMap fun c => if refuses c.2 then none else some c.1).getLast?

theorem lastTaken?_append (refuses : Nat → Bool) (asked : List Bool) (on : Bool) :
    lastTaken? refuses (asked ++ [on]) =
      if refuses asked.length then lastTaken? refuses asked else some on := by
  simp only [lastTaken?, List.zipIdx_append, List.filterMap_append]
  cases h : refuses asked.length <;> simp [h]

namespace Output

variable {fresh : Output} {line : TestLine} {refuses : Nat → Bool} {asked : List Bool}
  {p : Output × WatchedLine}

/-- What is asked of an output of a watched line is done altogether or not at all. -/
theorem drive_watched {o : Output} (h : o.direction = .output) (on : Bool) (w : WatchedLine) :
    ∃ w', o.drive on w =
        (if w.refuses w.writes.length then o else { o with active := on }, w') ∧
      w'.refuses = w.refuses ∧
      w'.writes = w.writes ++ [(o.polarity.level on, !w.refuses w.writes.length)] ∧
      w'.line.level =
        if w.refuses w.writes.length then w.line.level else some (o.polarity.level on) := by
  rcases hwrite : Lines.write w o.offset (o.polarity.level on) with ⟨taken, w'⟩
  have hw := hwrite
  cases hr : w.refuses w.writes.length with
  | true =>
    simp only [Lines.write, hr, if_true, Prod.mk.injEq] at hw
    obtain ⟨rfl, rfl⟩ := hw
    obtain ⟨text, hdrive⟩ := drive_of_refused h hwrite
    exact ⟨_, hdrive, rfl, rfl, rfl⟩
  | false =>
    simp only [Lines.write, hr, Bool.false_eq_true, if_false, Prod.mk.injEq] at hw
    obtain ⟨rfl, rfl⟩ := hw
    exact ⟨_, drive_of_taken h hwrite, rfl, rfl, rfl⟩

/-! ## Any calls -/

/-- An output and its line tell the same: what was written last. `fresh` is the output at the
beginning and `line` its line; `asked` are the states that were asked for since. -/
structure Remembers (fresh : Output) (line : TestLine) (refuses : Nat → Bool) (asked : List Bool)
    (p : Output × WatchedLine) : Prop where
  /-- Nothing else about the output changes, nor does the plan. -/
  same : p.1 = { fresh with active := p.1.active } ∧ p.2.refuses = refuses
  /-- Each of the states was written once and in order, as far as the line took it. -/
  tried : p.2.writes = asked.zipIdx.map fun c => (fresh.polarity.level c.1, !refuses c.2)
  /-- If the line took a write, the output is in the state of the last one, and the line is at the
  level for it. -/
  told : ∀ on, lastTaken? refuses asked = some on →
    p.1.active = on ∧ p.2.line.level = some (fresh.polarity.level p.1.active)
  /-- If it took none, the output is in the state that it began with, and the line as it was. -/
  untold : lastTaken? refuses asked = none →
    p.1.active = fresh.active ∧ p.2.line.level = line.level

theorem remembers_nil (fresh : Output) (line : TestLine) (refuses : Nat → Bool) :
    Remembers fresh line refuses [] (fresh, ⟨line, refuses, []⟩) where
  same := ⟨rfl, rfl⟩
  tried := rfl
  told := nofun
  untold _ := ⟨rfl, rfl⟩

namespace Remembers

theorem direction (h : Remembers fresh line refuses asked p) :
    p.1.direction = fresh.direction := by
  rw [h.same.1]

theorem polarity (h : Remembers fresh line refuses asked p) : p.1.polarity = fresh.polarity := by
  rw [h.same.1]

/-- The plan says of the next write whether the line takes it. -/
theorem refuses_next (h : Remembers fresh line refuses asked p) :
    p.2.refuses p.2.writes.length = refuses asked.length := by
  rw [h.same.2, h.tried, List.length_map, List.length_zipIdx]

/-- One more state is asked for. -/
theorem drive (h : Remembers fresh line refuses asked p) (hfresh : fresh.direction = .output)
    (on : Bool) : Remembers fresh line refuses (asked ++ [on]) (p.1.drive on p.2) := by
  obtain ⟨w', hdrive, hplan, hwrites, hlevel⟩ :=
    drive_watched (h.direction.trans hfresh) on p.2
  rw [h.refuses_next] at hdrive hwrites hlevel
  rw [h.polarity] at hwrites hlevel
  have htried : w'.writes =
      (asked ++ [on]).zipIdx.map fun c => (fresh.polarity.level c.1, !refuses c.2) := by
    rw [hwrites, h.tried, List.zipIdx_append, List.map_append, Nat.zero_add]
    rfl
  rw [hdrive]
  cases hr : refuses asked.length with
  | true =>
    -- A write that is refused changes neither of the two copies.
    rw [hr, if_pos rfl] at hlevel
    refine ⟨⟨h.same.1, hplan.trans h.same.2⟩, htried, ?_, ?_⟩
    · rw [lastTaken?_append, hr, if_pos rfl, hlevel]
      exact h.told
    · rw [lastTaken?_append, hr, if_pos rfl, hlevel]
      exact h.untold
  | false =>
    rw [hr, if_neg Bool.false_ne_true] at hlevel
    refine ⟨⟨?_, hplan.trans h.same.2⟩, htried, ?_, ?_⟩
    · rw [if_neg Bool.false_ne_true, h.same.1]
    · rw [lastTaken?_append, hr, if_neg Bool.false_ne_true]
      intro on' hon'
      exact ⟨Option.some.inj hon', hlevel⟩
    · rw [lastTaken?_append, hr, if_neg Bool.false_ne_true]
      exact nofun

/-- To write into the journal is to do nothing to the line. -/
theorem record (h : Remembers fresh line refuses asked p) (e : Effect) :
    Remembers fresh line refuses asked (p.1, Journaling.record p.2 e) :=
  ⟨h.same, h.tried, h.told, h.untold⟩

theorem switchAll (h : Remembers fresh line refuses asked p) (hfresh : fresh.direction = .output)
    (calls : List Bool) : Remembers fresh line refuses (asked ++ calls) (switchAll calls p) := by
  induction calls generalizing asked p with
  | nil => rwa [List.append_nil]
  | cons on rest ih =>
    have hnext := ih ((h.record (.driven p.1.offset on)).drive hfresh on)
    rwa [List.append_assoc] at hnext

end Remembers

/-- An output of a line that is no output does nothing. -/
theorem switchAll_input (calls : List Bool) (h : p.1.direction = .input) :
    (switchAll calls p).1 = p.1 ∧ (switchAll calls p).2.writes = p.2.writes ∧
      (switchAll calls p).2.line.level = p.2.line.level := by
  induction calls generalizing p with
  | nil => exact ⟨rfl, rfl, rfl⟩
  | cons on rest ih =>
    obtain ⟨text, hdrive⟩ := drive_of_input h on (record p.2 (.driven p.1.offset on))
    have hswitch : p.1.switch on p.2 = _ := hdrive
    have hrest : switchAll (on :: rest) p = switchAll rest (p.1.switch on p.2) := rfl
    rw [hrest, hswitch]
    exact @ih (p.1, log .warn text (record p.2 (.driven p.1.offset on))) h

/-! ## The two copies -/

/-- What is so of an output of a watched line after any calls. It is asked to be inactive when it
takes over the line, and then for what the calls say. -/
structure TellsLast (offset : Offset) (direction : Direction) (polarity : Polarity)
    (line : TestLine) (refuses : Nat → Bool) (calls : List Bool) (p : Output × WatchedLine) :
    Prop where
  /-- The output remembers what its line had last. -/
  output : direction = .output →
    Remembers ⟨offset, direction, polarity, false⟩ line refuses (false :: calls) p
  /-- A further call changes neither the output nor its line if the write fails. -/
  failed : direction = .output → refuses (calls.length + 1) = true → ∀ on,
    (p.1.switch on p.2).1 = p.1 ∧ (p.1.switch on p.2).2.line.level = p.2.line.level
  /-- A line that is no output is never written, and never active. -/
  input : direction = .input → p.1 = ⟨offset, direction, polarity, false⟩ ∧ p.2.writes = [] ∧
    p.2.line.level = line.level

/-- **An output tells what its line had last**, whatever writes the line refuses. -/
theorem tells_last_state (offset : Offset) (direction : Direction) (polarity : Polarity)
    (line : TestLine) (refuses : Nat → Bool) (calls : List Bool) :
    TellsLast offset direction polarity line refuses calls
      (life offset direction polarity calls (⟨line, refuses, []⟩ : WatchedLine)) := by
  have hlife : direction = .output → Remembers ⟨offset, direction, polarity, false⟩ line refuses
      (false :: calls) (life offset direction polarity calls (⟨line, refuses, []⟩ : WatchedLine)) :=
    fun h => ((remembers_nil _ line refuses).drive h false).switchAll h calls
  refine ⟨hlife, fun h hr on => ?_, fun h => ?_⟩
  · have hnow := hlife h
    generalize life offset direction polarity calls (⟨line, refuses, []⟩ : WatchedLine) = p at hnow
    obtain ⟨w', hdrive, -, -, hlevel⟩ := drive_watched (hnow.direction.trans h) on
      (record p.2 (.driven p.1.offset on))
    have hrefused : (record p.2 (.driven p.1.offset on)).refuses
        (record p.2 (.driven p.1.offset on)).writes.length = true := hnow.refuses_next.trans hr
    rw [hrefused, if_pos rfl] at hdrive hlevel
    have hswitch : p.1.switch on p.2 = (p.1, w') := hdrive
    rw [hswitch]
    exact ⟨rfl, hlevel⟩
  · obtain ⟨text, hclaim⟩ := drive_of_input (o := ⟨offset, direction, polarity, false⟩) h false
      (⟨line, refuses, []⟩ : WatchedLine)
    have hclaimed :
        claim offset direction polarity (⟨line, refuses, []⟩ : WatchedLine) = _ := hclaim
    rw [life, hclaimed]
    exact switchAll_input (p := (_, log .warn text (⟨line, refuses, []⟩ : WatchedLine))) calls h

end Output

end Irrigation
