import Irrigation.Console.Line
import Irrigation.Proofs.Console.Encoding
import Irrigation.Proofs.Results
import Irrigation.Proofs.Text.Breaks

/-!
# Flows named in a line

A line of the console is read word by word, so a value in it is a word or a part of one, and has no
line break in it. What a form reads into a record keeps every property that values of one line keep
(`Form.Keeps.read`). So whatever the line is, the flow that a start names is one line
(`ConsoleCommand.oneLine_flow`).
-/

namespace Irrigation

open Text (OneLine)

/-! ## Values in words -/

namespace Word

/-- The value behind an equals sign is a part of the word. -/
theorem oneLine_value {cs : List Char} (h : OneLine (String.ofList cs)) {name value : String}
    (hword : ofChars cs = .long name (some value)) : OneLine value := by
  unfold ofChars at hword
  split at hword
  · next cs =>
    simp only [splitValue, long.injEq] at hword
    split at hword
    · cases hword.2
    · next c chars hchars =>
      obtain rfl := Option.some.inj hword.2
      refine Text.oneLine_ofList.mpr fun d hd => Text.oneLine_ofList.mp h d ?_
      have hmem : d ∈ cs.dropWhile (· != '=') := hchars ▸ List.mem_cons_of_mem c hd
      exact List.mem_cons_of_mem _ (List.mem_cons_of_mem _ ((List.dropWhile_subset _) hmem))
  · cases hword
  · cases hword

end Word

/-! ## What is read keeps a property -/

namespace Switch

variable {α : Type} {P : α → Prop}

/-- A record keeps a property when the switch puts a value of one line into it. -/
def Keeps (s : Switch α) (P : α → Prop) : Prop :=
  ∀ (value : String) (a a' : α), OneLine value → P a → s.put value a = .ok a' → P a'

variable {name called about : String}

/-- A switch that only sets a flag. -/
theorem keeps_flag {s : Switch α} {put : α → α} (hs : s.put = fun _ a => .ok (put a))
    (h : ∀ a, P a → P (put a)) : s.Keeps P := by
  intro value a a' _ ha hput
  rw [hs] at hput
  exact Except.ok.inj hput ▸ h a ha

theorem keeps_number {put : Int → α → α} (h : ∀ n a, P a → P (put n a)) :
    (number name called about put).Keeps P := by
  intro value a a' _ ha hput
  simp only [number] at hput
  split at hput
  · obtain rfl := Except.ok.inj hput
    exact h _ a ha
  · cases hput

theorem keeps_optional {put : String → α → α} (h : ∀ w, OneLine w → ∀ a, P a → P (put w a)) :
    (optional name called about put).Keeps P :=
  fun w a _ hw ha hput => Except.ok.inj hput ▸ h w hw a ha

theorem keeps_help (page : HelpPage) : (help page : Switch α).Keeps P := fun _ _ _ _ _ hput => by
  cases hput

end Switch

namespace Form

variable {α : Type} {f : Form α} {P : α → Prop} {r r' : Reading α} {s : Switch α}
  {value : Option String}

/-- All switches of a form keep a property. -/
def Keeps (f : Form α) (P : α → Prop) : Prop := ∀ s ∈ f.switches, s.Keeps P

/-- The record has the property, and what is pending is a switch of the form with a value of one
line, if there is one. -/
structure Sound (f : Form α) (P : α → Prop) (r : Reading α) : Prop where
  record : P r.record
  pending : ∀ s value, r.pending = some (s, value) → s ∈ f.switches ∧ ∀ w ∈ value, OneLine w

namespace Keeps

theorem accept (h : f.Keeps P) (hr : f.Sound P r) (hs : s ∈ f.switches)
    (hvalue : ∀ w ∈ value, OneLine w) (hread : f.accept r s value = .ok r') : f.Sound P r' := by
  have hline : OneLine (value.getD "") := by
    cases value with
    | none => exact (by decide : OneLine "")
    | some w => exact hvalue w rfl
  unfold Form.accept at hread
  split at hread
  · cases hread
  · split at hread
    · cases hread
    · obtain ⟨a, hput, rfl⟩ := exists_of_map_eq_ok hread
      exact ⟨h s hs _ _ a hline hr.record hput, hr.pending⟩

theorem settle (h : f.Keeps P) (hr : f.Sound P r) (hread : f.settle r = .ok r') : f.Sound P r' := by
  unfold Form.settle at hread
  split at hread
  · obtain rfl := Except.ok.inj hread
    exact hr
  · next s value hpending =>
    obtain ⟨hs, hvalue⟩ := hr.pending s value hpending
    have hfree : f.Sound P { r with pending := none } := ⟨hr.record, fun _ _ h => nomatch h⟩
    exact h.accept hfree hs hvalue hread

theorem enter (h : f.Keeps P) (hr : f.Sound P r) (hs : s ∈ f.switches)
    (hvalue : ∀ w ∈ value, OneLine w) (hread : f.enter r s value = .ok r') : f.Sound P r' := by
  unfold Form.enter at hread
  split at hread
  · cases hread
  · obtain ⟨r₁, hsettled, hread⟩ := exists_of_bind_eq_ok hread
    exact h.accept (h.settle hr hsettled) hs hvalue hread
  · obtain ⟨r₁, hsettled, hread⟩ := exists_of_bind_eq_ok hread
    exact h.accept (h.settle hr hsettled) hs hvalue hread
  · obtain ⟨r₁, hsettled, hread⟩ := exists_of_bind_eq_ok hread
    obtain rfl := Except.ok.inj hread
    refine ⟨(h.settle hr hsettled).record, fun s' value' heq => ?_⟩
    obtain ⟨rfl, rfl⟩ := Prod.mk.inj (Option.some.inj heq)
    exact ⟨hs, fun _ h => nomatch h⟩

theorem letters (h : f.Keeps P) {cs : List Char} (hr : f.Sound P r)
    (hread : f.letters cs r = .ok r') : f.Sound P r' := by
  induction cs generalizing r with
  | nil =>
    obtain rfl := Except.ok.inj hread
    exact hr
  | cons c rest ih =>
    unfold Form.letters at hread
    split at hread
    · cases hread
    · next s hfind =>
      obtain ⟨r₁, hentered, hread⟩ := exists_of_bind_eq_ok hread
      exact ih (h.enter hr (List.mem_of_find?_eq_some hfind) (fun _ h => by cases h) hentered) hread

theorem fill (hr : f.Sound P r) {w : String} (hw : OneLine w) : f.Sound P (r.fill w) := by
  refine ⟨hr.record, fun s value heq => ?_⟩
  obtain ⟨⟨s', value'⟩, hpending, heq⟩ := Option.map_eq_some_iff.mp heq
  obtain ⟨rfl, rfl⟩ := Prod.mk.inj heq
  exact ⟨(hr.pending _ _ hpending).1, fun w' hw' => Option.some.inj hw' ▸ hw⟩

theorem word (h : f.Keeps P) (hr : f.Sound P r) {w : String} (hw : OneLine w)
    (hread : f.word r w = .ok r') : f.Sound P r' := by
  unfold Form.word at hread
  split at hread
  · next name value hword =>
    split at hread
    · cases hread
    · next s hfind =>
      refine h.enter hr (List.mem_of_find?_eq_some hfind) (fun v hv => ?_) hread
      obtain rfl : value = some v := hv
      exact Word.oneLine_value (by rwa [String.ofList_toList]) hword
  · split at hread
    · obtain rfl := Except.ok.inj hread
      exact fill hr hw
    · exact h.letters hr hread
  · split at hread
    · obtain rfl := Except.ok.inj hread
      exact fill hr hw
    · cases hread

theorem words (h : f.Keeps P) {ws : List String} (hws : ∀ w ∈ ws, OneLine w) (hr : f.Sound P r)
    (hread : f.words ws r = .ok r') : f.Sound P r' := by
  induction ws generalizing r with
  | nil => exact h.settle hr hread
  | cons w rest ih =>
    rw [List.forall_mem_cons] at hws
    unfold Form.words at hread
    split at hread
    · next heq => cases heq
    · exact h.settle hr hread
    · cases hread
    · next w' rest' _ _ heq =>
      obtain ⟨rfl, rfl⟩ := List.cons.inj heq
      obtain ⟨r₁, hword, hread⟩ := exists_of_bind_eq_ok hread
      exact ih hws.2 (h.word hr hws.1 hword) hread

/-- **What is read from words of one line** has every property that the start has and the switches
keep. -/
theorem read (h : f.Keeps P) {start a : α} (hstart : P start) {ws : List String}
    (hws : ∀ w ∈ ws, OneLine w) (hread : f.read start ws = .ok a) : P a := by
  obtain ⟨r, hwords, hread⟩ := exists_of_bind_eq_ok hread
  have hr := h.words hws (r := { record := start }) ⟨hstart, fun _ _ h => nomatch h⟩ hwords
  split at hread
  · cases hread
  · obtain rfl := Except.ok.inj hread
    exact hr.record

end Keeps

end Form

/-! ## Commands -/

/-- If the options name a flow, this is one line. -/
def WateringOptions.NamesLine (o : WateringOptions) : Prop :=
  ∀ flow, o.start = some flow → OneLine flow

/-- If a command names a flow, this is one line. -/
def ConsoleCommand.NamesLine (c : ConsoleCommand) : Prop := ∀ o, c = .watering o → o.NamesLine

namespace Console

variable {page : HelpPage} {ws : List String} {c : ConsoleCommand}

/-- Whatever a line leads to is read by a command from words of the line. -/
theorem exists_entry (h : read ws = .ok c) :
    ∃ e ∈ entries, ∃ rest ⊆ ws, e.read e.page rest = .ok c := by
  unfold read at h
  split at h
  · cases h
  · cases h
  · cases h
  · next w rest _ _ =>
    split at h
    · cases h
    · split at h
      · next e hcommand =>
        exact ⟨e, List.mem_of_find?_eq_some hcommand, rest, List.subset_cons_self .., h⟩
      · cases h
      · cases h

theorem keeps_wateringSwitches : ∀ s ∈ wateringSwitches, s.Keeps WateringOptions.NamesLine := by
  have hstart (flow : String) (hflow : OneLine flow) (o : WateringOptions) :
      { o with start := some flow }.NamesLine := fun _ heq => Option.some.inj heq ▸ hflow
  simp only [wateringSwitches, List.forall_mem_cons]
  exact ⟨Switch.keeps_optional fun flow hflow o _ => hstart flow hflow o,
    Switch.keeps_flag rfl fun _ h => h, Switch.keeps_number fun _ _ h => h,
    Switch.keeps_number fun _ _ h => h, Switch.keeps_number fun _ _ h => h,
    Switch.keeps_number fun _ _ h => h, Switch.keeps_number fun _ _ h => h,
    Switch.keeps_flag rfl fun _ h => h, Switch.keeps_flag rfl fun _ h => h,
    Switch.keeps_flag rfl fun _ h => h, Switch.keeps_flag rfl fun _ h => h,
    fun _ h => absurd h List.not_mem_nil⟩

/-- If what a command reads from words of one line names a flow, this is one line. -/
def Entry.NamesLines (e : Entry) : Prop :=
  ∀ ⦃page ws c⦄, (∀ w ∈ ws, OneLine w) → e.read page ws = .ok c → c.NamesLine

theorem namesLines_watering : watering.NamesLines := by
  intro page ws c hws h
  have hkeeps : Form.Keeps ⟨page.synopsis, wateringSwitches ++ [.help page]⟩
      WateringOptions.NamesLine :=
    List.forall_mem_append.mpr
      ⟨keeps_wateringSwitches, List.forall_mem_singleton.mpr (Switch.keeps_help page)⟩
  obtain ⟨o, hread, rfl⟩ := exists_of_map_eq_ok h
  rintro _ ⟨⟩
  exact hkeeps.read (fun _ h => by cases h) hws hread

theorem namesLines_project : project.NamesLines := by
  intro page ws c _ h
  obtain ⟨action, -, h⟩ := exists_of_bind_eq_ok h
  cases action with
  | none => cases h
  | some action =>
    obtain rfl := Except.ok.inj h
    exact fun _ h => by cases h

/-- A command without switches is always the same. -/
theorem namesLines_plain (name about : String) {command : ConsoleCommand}
    (h : command.NamesLine) : (plain name about command).NamesLines := by
  intro page ws c hws hread
  have hkeeps : Form.Keeps ⟨page.synopsis, [.help page]⟩ ConsoleCommand.NamesLine :=
    List.forall_mem_singleton.mpr (Switch.keeps_help page)
  exact hkeeps.read h hws hread

theorem namesLines_entries : ∀ e ∈ entries, e.NamesLines := by
  unfold entries
  rw [List.forall_mem_cons, List.forall_mem_cons, List.forall_mem_cons, List.forall_mem_cons,
    List.forall_mem_cons, List.forall_mem_singleton]
  refine ⟨namesLines_watering, ?_, ?_, namesLines_project, ?_, ?_⟩
  all_goals exact namesLines_plain _ _ fun _ h => by cases h

end Console

/-- **The flow that a line names** is one line, whatever the line is. -/
theorem ConsoleCommand.oneLine_flow {line : String} {o : WateringOptions}
    (h : ofLine line = .ok (.watering o)) {name : String}
    (hname : .start (some name) ∈ o.commands) : OneLine name := by
  obtain ⟨e, he, rest, hrest, hread⟩ := Console.exists_entry h
  have hwords : ∀ w ∈ rest, OneLine w := fun w hw => Text.oneLine_of_mem_words (hrest hw)
  exact Console.namesLines_entries e he hwords hread o rfl name
    (WateringOptions.mem_commands.mp hname).1

end Irrigation
