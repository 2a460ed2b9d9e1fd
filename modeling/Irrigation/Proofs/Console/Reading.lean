import Irrigation.Console.Line
import Irrigation.Proofs.Console.Encoding
import Irrigation.Proofs.Text.Spelling
import Irrigation.Proofs.Usage.Given

/-!
# Lines that write options

Watering options are written as a line: a name of the command, then for each option that is given
its words (`WateringCommand.words`), in any order and with any blanks between them. Such a line is
read as these options and no others, unless it switches one device both on and off; a line that does
so is refused, whatever else stands in it (`Console.lines_read_back`).
-/

namespace Irrigation

namespace Console

/-- The names of the watering command. -/
def wateringNames : List String := ["auto-watering", "aws"]

/-- The word that switches a device on or off. -/
def flag : Role → Bool → String
  | .valve, true => "--enable-valve"
  | .valve, false => "--disable-valve"
  | .pump, true => "--enable-pump"
  | .pump, false => "--disable-pump"

/-- What can be given to the watering command. -/
def wateringForm : Form WateringOptions :=
  ⟨watering.page.synopsis, wateringSwitches ++ [.help watering.page]⟩

theorem read_watering {name : String} (hname : name ∈ wateringNames) (rest : List String) :
    read (name :: rest) = (wateringForm.read {} rest).map .watering := by
  rcases List.mem_pair.mp hname with rfl | rfl <;> rfl

theorem isWord_wateringName {name : String} (hname : name ∈ wateringNames) : Text.IsWord name := by
  rcases List.mem_pair.mp hname with rfl | rfl <;> decide

theorem isWord_switch : ∀ s ∈ wateringSwitches, Text.IsWord ("--" ++ s.name) := by decide

theorem has_wateringForm : ∀ s ∈ wateringSwitches, wateringForm.Has s := by
  simp only [wateringSwitches, List.forall_mem_cons]
  exact ⟨⟨rfl, by decide, rfl⟩, ⟨rfl, by decide, rfl⟩, ⟨rfl, by decide, rfl⟩,
    ⟨rfl, by decide, rfl⟩, ⟨rfl, by decide, rfl⟩, ⟨rfl, by decide, rfl⟩, ⟨rfl, by decide, rfl⟩,
    ⟨rfl, by decide, rfl⟩, ⟨rfl, by decide, rfl⟩, ⟨rfl, by decide, rfl⟩, ⟨rfl, by decide, rfl⟩,
    nofun⟩

end Console

/-! ## What a command is written as -/

namespace WateringCommand

open Text (IsWord IsInt64)

variable {c c' : WateringCommand}

/-- The words of a line that ask for a command. -/
def words : WateringCommand → List String
  | .start flow => "--start" :: flow.toList
  | .stop => ["--stop"]
  | .setDuration .activation ms => ["--activation-time", toString ms]
  | .setDuration .deactivation ms => ["--deactivation-time", toString ms]
  | .setDuration .separation ms => ["--pumpvalve-deactsep-time", toString ms]
  | .setLine .valve n => ["--valve-pin-id", toString n]
  | .setLine .pump n => ["--pump-pin-id", toString n]
  | .enable r on => [Console.flag r on]

/-- What can be written: numbers of 64 bits, and flows that are one word without a dash in front. -/
def Writable : WateringCommand → Prop
  | .start (some flow) => IsWord flow ∧ flow.toList.head? ≠ some '-'
  | .setDuration _ ms => IsInt64 ms
  | .setLine _ n => IsInt64 n
  | _ => True

/-- The place of the switch that asks for a command among those of the line. -/
def place : WateringCommand → Fin Console.wateringSwitches.length
  | .start _ => ⟨0, by decide⟩
  | .stop => ⟨1, by decide⟩
  | .setDuration .activation _ => ⟨2, by decide⟩
  | .setDuration .deactivation _ => ⟨3, by decide⟩
  | .setDuration .separation _ => ⟨4, by decide⟩
  | .setLine .valve _ => ⟨5, by decide⟩
  | .setLine .pump _ => ⟨6, by decide⟩
  | .enable .valve true => ⟨7, by decide⟩
  | .enable .valve false => ⟨8, by decide⟩
  | .enable .pump true => ⟨9, by decide⟩
  | .enable .pump false => ⟨10, by decide⟩

/-- The value behind that switch. -/
def value? : WateringCommand → Option String
  | .start flow => flow
  | .setDuration _ ms => some (toString ms)
  | .setLine _ n => some (toString n)
  | _ => none

/-- The switch that asks for a command. -/
def switch (c : WateringCommand) : Switch WateringOptions := Console.wateringSwitches.get c.place

/-- The switch that asks for a command, with its value. -/
def given (c : WateringCommand) : Given WateringOptions := ⟨c.switch, c.value?⟩

theorem words_given (c : WateringCommand) : c.given.words = c.words := by
  cases c with
  | start flow => cases flow <;> rfl
  | stop => rfl
  | setDuration i ms => cases i <;> rfl
  | setLine r n => cases r <;> rfl
  | enable r on => cases r <;> cases on <;> rfl

theorem has_switch (c : WateringCommand) : Console.wateringForm.Has c.switch :=
  Console.has_wateringForm _ (List.get_mem _ _)

theorem isWord_value {w : String} (hc : c.Writable) (hw : c.value? = some w) : IsWord w := by
  cases c with
  | start flow =>
    obtain rfl : flow = some w := hw
    exact hc.1
  | setDuration i ms => exact Option.some.inj hw ▸ Text.isWord_toString ms
  | setLine r n => exact Option.some.inj hw ▸ Text.isWord_toString n
  | _ => cases hw

/-- What a command is written as are words of a line. -/
theorem isWord_of_mem_words {w : String} (hc : c.Writable) (hw : w ∈ c.words) : IsWord w := by
  rw [← words_given] at hw
  rcases List.mem_cons.mp hw with rfl | hw
  · exact Console.isWord_switch _ (List.get_mem _ _)
  · exact isWord_value hc (Option.mem_toList.mp hw)

/-! ## The switch takes what is written -/

theorem isNumeric_of_isDigit {cs : List Char} (hcs : ∀ c ∈ cs, c.isDigit = true) (first : Bool) :
    Word.isNumeric first false false cs = true := by
  induction cs generalizing first with
  | nil => rfl
  | cons c cs ih =>
    rw [Word.isNumeric, if_pos (hcs c List.mem_cons_self)]
    exact ih (fun d hd => hcs d (List.mem_cons_of_mem _ hd)) false

theorem ofChars_plain {cs : List Char} (hcs : cs.head? ≠ some '-') : Word.ofChars cs = .plain := by
  unfold Word.ofChars
  split
  · exact absurd rfl hcs
  · exact absurd rfl hcs
  · rfl

/-- A number is a value for a switch that takes negative ones. -/
theorem admits_toString (called : String) (n : Int) :
    (Takes.value called true).Admits (some (toString n)) := by
  obtain ⟨c, cs, hdigits, -, htext⟩ := Text.exists_toList_toString n
  obtain ⟨hminus, -⟩ := Text.ne_of_isDigit (hdigits c List.mem_cons_self)
  change Word.ofChars (toString n).toList = .plain ∨
    true = true ∧ ∃ cs, Word.ofChars (toString n).toList = .letters cs ∧ Word.isNumber cs = true
  rw [htext]
  split
  · refine .inr ⟨rfl, c :: cs, ?_, isNumeric_of_isDigit hdigits true⟩
    unfold Word.ofChars
    split
    · next h => exact absurd (List.cons.inj (List.cons.inj h).2).1 hminus
    · next h => rw [(List.cons.inj h).2]
    · next h => exact absurd rfl (h _ _)
  · exact .inl (ofChars_plain fun h => hminus (Option.some.inj h))

theorem admits (hc : c.Writable) : c.switch.takes.Admits c.value? := by
  cases c with
  | start flow =>
    cases flow with
    | none => trivial
    | some flow => exact ofChars_plain hc.2
  | stop => trivial
  | setDuration i ms => cases i <;> exact admits_toString _ ms
  | setLine r n => cases r <;> exact admits_toString _ n
  | enable r on => cases r <;> cases on <;> trivial

/-! ## The switch puts it into the options -/

/-- Options with those that ask for a command. -/
def put : WateringCommand → WateringOptions → WateringOptions
  | .start flow, o => { o with start := some (flow.getD "") }
  | .stop, o => { o with stop := true }
  | .setDuration .activation ms, o => { o with activation := some ms }
  | .setDuration .deactivation ms, o => { o with deactivation := some ms }
  | .setDuration .separation ms, o => { o with separation := some ms }
  | .setLine r n, o => { o with line := o.line.set r (some n) }
  | .enable r true, o => { o with enable := o.enable.set r true }
  | .enable r false, o => { o with disable := o.disable.set r true }

theorem number_put {n : Int} (hn : IsInt64 n) (name called about : String)
    (put : Int → WateringOptions → WateringOptions) (o : WateringOptions) :
    (Switch.number name called about put).put (toString n) o = .ok (put n o) := by
  simp only [Switch.number, Text.readInt64_toString hn]

theorem put_given (hc : c.Writable) (o : WateringOptions) : c.given.put o = .ok (c.put o) := by
  cases c with
  | start flow => rfl
  | stop => rfl
  | setDuration i ms => cases i <;> exact number_put hc _ _ _ _ o
  | setLine r n => cases r <;> exact number_put hc _ _ _ _ o
  | enable r on => cases r <;> cases on <;> rfl

theorem putAll_given {cs : List WateringCommand} (hcs : ∀ c ∈ cs, c.Writable)
    (o : WateringOptions) :
    Form.putAll (cs.map given) o = .ok (cs.foldl (fun o c => c.put o) o) := by
  induction cs generalizing o with
  | nil => rfl
  | cons c cs ih =>
    rw [List.map_cons, Form.putAll, List.foldlM_cons, put_given (hcs c List.mem_cons_self)]
    exact ih (fun c' hc' => hcs c' (List.mem_cons_of_mem _ hc')) _

/-- The options of some commands are those of the rest with what asks for the first. -/
theorem ofCommands_cons (c : WateringCommand) (cs : List WateringCommand) :
    WateringOptions.ofCommands (c :: cs) = c.put (WateringOptions.ofCommands cs) := by
  cases c with
  | start flow => rfl
  | stop => rfl
  | setDuration i ms => cases i <;> rfl
  | setLine r n => cases r <;> rfl
  | enable r on => cases r <;> cases on <;> rfl

theorem foldr_put (cs : List WateringCommand) :
    cs.foldr (fun c o => c.put o) {} = WateringOptions.ofCommands cs := by
  induction cs with
  | nil => rfl
  | cons c cs ih => rw [List.foldr_cons, ih, ofCommands_cons]

/-! ## One switch, one rank -/

/-- The names of the switches, in the order of the ranks of what they ask for. -/
def switchNames : List String :=
  ["stop", "valve-pin-id", "pump-pin-id", "enable-valve", "disable-valve", "enable-pump",
    "disable-pump", "activation-time", "deactivation-time", "pumpvalve-deactsep-time", "start"]

theorem rank_eq_idxOf (c : WateringCommand) : c.rank = switchNames.idxOf c.switch.name := by
  cases c with
  | start flow => rfl
  | stop => rfl
  | setDuration i ms => cases i <;> rfl
  | setLine r n => cases r <;> rfl
  | enable r on => cases r <;> cases on <;> rfl

/-- Only the two flags of one device are rivals. -/
theorem eq_enable_of_rivals {theme : String} (h : Form.Rivals theme c.switch c'.switch) :
    ∃ r on, c = .enable r on ∧ c' = .enable r !on := by
  have henable : ∀ {c : WateringCommand}, c.switch.theme = some theme →
      ∃ r on, c = .enable r on := by
    intro c hc
    cases c with
    | start flow => cases hc
    | stop => cases hc
    | setDuration i ms => cases i <;> cases hc
    | setLine r n => cases r <;> cases hc
    | enable r on => exact ⟨r, on, rfl⟩
  obtain ⟨r, on, rfl⟩ := henable h.left
  obtain ⟨r', on', rfl⟩ := henable h.right
  refine ⟨r, on, rfl, ?_⟩
  have hsame := h.left.trans h.right.symm
  cases r <;> cases r' <;> cases on <;> cases on' <;>
    first | rfl | exact absurd rfl h.differ | exact absurd hsame (by decide)

theorem rivals_enable (r : Role) (on : Bool) :
    ∃ theme, Form.Rivals theme (enable r on).switch (enable r !on).switch := by
  cases r <;> cases on <;> exact ⟨_, rfl, rfl, by decide⟩

theorem title_enable (r : Role) (on : Bool) : (enable r on).switch.title = Console.flag r on := by
  cases r <;> cases on <;> rfl

theorem word_enable (r : Role) (on : Bool) :
    "--" ++ (enable r on).switch.name = Console.flag r on := by
  cases r <;> cases on <;> rfl

end WateringCommand

/-! ## What options are written as -/

namespace WateringOptions

variable {o : WateringOptions} {cs : List WateringCommand}

/-- All that options ask for can be written. -/
def Writable (o : WateringOptions) : Prop := ∀ c, o.Asks c → c.Writable

/-- No device is to be switched both on and off. -/
def Agrees (o : WateringOptions) : Prop :=
  ∀ r, ¬(o.enable.get r = true ∧ o.disable.get r = true)

/-- Some commands are what options ask for, in some order. -/
structure Lists (o : WateringOptions) (cs : List WateringCommand) : Prop where
  once : cs.Nodup
  asked : ∀ c, c ∈ cs ↔ o.Asks c

/-- A line writes options: a name of the command stands in it, and then the words of all that the
options ask for, in any order and with any blanks between them. -/
def WrittenAs (o : WateringOptions) (line : String) : Prop :=
  ∃ name ∈ Console.wateringNames, ∃ cs, o.Lists cs ∧
    Text.Spells line.toList (name :: cs.flatMap WateringCommand.words)

/-- What options ask for has different ranks, and so different switches. -/
theorem Lists.nodup_names (h : o.Lists cs) : (cs.map fun c => c.switch.name).Nodup := by
  have hperm : cs.Perm o.commands :=
    (List.perm_ext_iff_of_nodup h.once (nodup_of_ordered o.ranked_commands.ordered)).mpr
      fun c => (h.asked c).trans mem_commands.symm
  have hranks : cs.Pairwise fun a b => a.rank ≠ b.rank :=
    (hperm.pairwise_iff Ne.symm).mpr (o.ranked_commands.ordered.imp Nat.ne_of_lt)
  refine List.pairwise_map.mpr (hranks.imp fun {a b} hne heq => hne ?_)
  rw [WateringCommand.rank_eq_idxOf, heq, ← WateringCommand.rank_eq_idxOf]

/-- Put into empty options one after the other, what options ask for makes these options again. -/
theorem Lists.foldl_put (h : o.Lists cs) : cs.foldl (fun o c => c.put o) {} = o := by
  rw [List.foldl_eq_foldr_reverse, WateringCommand.foldr_put]
  exact ofCommands_eq fun c => List.mem_reverse.trans (h.asked c)

end WateringOptions

namespace Console

variable {o : WateringOptions} {cs : List WateringCommand} {line : String}

theorem switch_map (cs : List WateringCommand) :
    (cs.map WateringCommand.given).map Given.switch = cs.map WateringCommand.switch := by
  rw [List.map_map]
  rfl

/-- The words of options in any order are read as the options, up to rivals. -/
theorem read_words (hwritable : o.Writable) (hcs : o.Lists cs) :
    wateringForm.read {} (cs.flatMap WateringCommand.words) =
      wateringForm.result { record := o, given := cs.map WateringCommand.switch } := by
  have hwritable : ∀ c ∈ cs, c.Writable := fun c hc => hwritable c ((hcs.asked c).mp hc)
  have hwords : (cs.map WateringCommand.given).flatMap Given.words =
      cs.flatMap WateringCommand.words := by
    rw [List.flatMap_map]
    exact List.flatMap_congr fun c _ => c.words_given
  have hread := Form.read_given (f := wateringForm) (a := o) (cs.map WateringCommand.given) {}
    ?_ ?_ ?_
  · rwa [hwords, switch_map] at hread
  · intro g hg
    obtain ⟨c, hc, rfl⟩ := List.mem_map.mp hg
    exact ⟨c.has_switch, WateringCommand.admits (hwritable c hc)⟩
  · rw [List.map_map]
    exact hcs.nodup_names
  · rw [WateringCommand.putAll_given hwritable, hcs.foldl_put]

/-- A line with a name of the command in front is read by what stands behind it. -/
theorem ofLine_of_spells {name : String} {ws : List String} (hname : name ∈ wateringNames)
    (hws : ∀ w ∈ ws, Text.IsWord w) (hline : Text.Spells line.toList (name :: ws)) :
    ConsoleCommand.ofLine line = (wateringForm.read {} ws).map .watering := by
  have hwords : Text.words line = name :: ws :=
    Text.words_of_spells hline (List.forall_mem_cons.mpr ⟨isWord_wateringName hname, hws⟩)
  rw [ConsoleCommand.ofLine, hwords, read_watering hname]

/-- A line that writes options is read as the options, up to rivals. -/
theorem ofLine_of_writtenAs (hwritable : o.Writable) (hline : o.WrittenAs line) :
    ∃ cs, o.Lists cs ∧ ConsoleCommand.ofLine line =
      (wateringForm.result { record := o, given := cs.map WateringCommand.switch }).map
        .watering := by
  obtain ⟨name, hname, cs, hcs, hline⟩ := hline
  refine ⟨cs, hcs, ?_⟩
  rw [ofLine_of_spells hname ?_ hline, read_words hwritable hcs]
  intro w hw
  obtain ⟨c, hc, hw⟩ := List.mem_flatMap.mp hw
  exact WateringCommand.isWord_of_mem_words (hwritable c ((hcs.asked c).mp hc)) hw

/-- Rivals in a line that writes options are the flags of a device that is to be both on and
off. -/
theorem asks_of_conflict? {s other : Switch WateringOptions} (hcs : o.Lists cs)
    (h : Reading.conflict? { record := o, given := cs.map WateringCommand.switch } =
      some (s, other)) :
    ∃ r on, (o.Asks (.enable r on) ∧ o.Asks (.enable r !on)) ∧ s.title = flag r on ∧
      other.title = flag r !on := by
  obtain ⟨hs, hother, theme, hrivals⟩ := Form.rivals_of_conflict? h
  obtain ⟨c, hc, rfl⟩ := List.mem_map.mp hs
  obtain ⟨c', hc', rfl⟩ := List.mem_map.mp hother
  obtain ⟨r, on, rfl, rfl⟩ := WateringCommand.eq_enable_of_rivals hrivals
  exact ⟨r, on, ⟨(hcs.asked _).mp hc, (hcs.asked _).mp hc'⟩, WateringCommand.title_enable r on,
    WateringCommand.title_enable r !on⟩

/-- If a device is to be both on and off, there are rivals in the line. -/
theorem conflict?_of_not_agrees (hcs : o.Lists cs) (h : ¬o.Agrees) :
    ∃ s other, Reading.conflict? { record := o, given := cs.map WateringCommand.switch } =
      some (s, other) := by
  obtain ⟨r, hr⟩ := not_forall.mp h
  obtain ⟨hon, hoff⟩ := not_not.mp hr
  obtain ⟨theme, hrivals⟩ := WateringCommand.rivals_enable r true
  have hmem : ∀ c, o.Asks c → c.switch ∈ cs.map WateringCommand.switch := fun c hc =>
    List.mem_map_of_mem ((hcs.asked c).mpr hc)
  obtain ⟨⟨s, other⟩, hfound⟩ := Option.isSome_iff_exists.mp
    (Form.conflict?_isSome (r := { record := o, given := cs.map WateringCommand.switch }) hrivals
      (hmem _ hon) (hmem _ hoff))
  exact ⟨s, other, hfound⟩

/-- What it means that a line is read as what is written in it. -/
structure ReadsBack (line : String) : Prop where
  /-- A line that writes options is read as exactly these options. -/
  read : ∀ o : WateringOptions, o.Writable → o.Agrees → o.WrittenAs line →
    ConsoleCommand.ofLine line = .ok (.watering o)
  /-- If the options switch a device both on and off, the line is refused, and the error names the
  two flags of such a device. -/
  crossed : ∀ o : WateringOptions, o.Writable → ¬o.Agrees → o.WrittenAs line →
    ∃ r on advice, (o.Asks (.enable r on) ∧ o.Asks (.enable r !on)) ∧
      ConsoleCommand.ofLine line = .error (.misuse (.conflict (flag r on) (flag r !on)) advice)
  /-- A line with both flags of a device in it is refused, whatever its other words are and wherever
  the flags stand among them. -/
  refused : ∀ name ∈ wateringNames, ∀ ws, (∀ w ∈ ws, Text.IsWord w) →
    Text.Spells line.toList (name :: ws) → ∀ r, flag r true ∈ ws → flag r false ∈ ws →
    ∃ e, ConsoleCommand.ofLine line = .error e

/-- **Reading a line undoes writing it**, in whatever order the options stand, and no line that
switches a device both on and off is read. -/
theorem lines_read_back (line : String) : ReadsBack line where
  read := by
    intro o hwritable hagrees hline
    obtain ⟨cs, hcs, hread⟩ := ofLine_of_writtenAs hwritable hline
    have hnone : Reading.conflict? { record := o, given := cs.map WateringCommand.switch } =
        none := by
      refine Option.eq_none_iff_forall_not_mem.mpr fun ⟨s, other⟩ hfound => ?_
      obtain ⟨r, on, ⟨hon, hoff⟩, -⟩ := asks_of_conflict? hcs hfound
      cases on with
      | true => exact hagrees r ⟨hon, hoff⟩
      | false => exact hagrees r ⟨hoff, hon⟩
    rw [hread, Form.result_of_none hnone]
    rfl
  crossed := by
    intro o hwritable hcrossed hline
    obtain ⟨cs, hcs, hread⟩ := ofLine_of_writtenAs hwritable hline
    obtain ⟨s, other, hfound⟩ := conflict?_of_not_agrees hcs hcrossed
    obtain ⟨r, on, hasks, hs, hother⟩ := asks_of_conflict? hcs hfound
    obtain ⟨advice, hresult⟩ := Form.result_of_some (f := wateringForm) hfound
    refine ⟨r, on, advice, hasks, ?_⟩
    rw [hread, hresult, hs, hother]
    rfl
  refused := by
    intro name hname ws hws hline r hon hoff
    rw [ofLine_of_spells hname hws hline]
    obtain ⟨theme, hrivals⟩ := WateringCommand.rivals_enable r true
    rw [← WateringCommand.word_enable] at hon hoff
    obtain ⟨e, he⟩ := Form.read_rivals (WateringCommand.has_switch _)
      (WateringCommand.has_switch _) hrivals hon hoff {}
    exact ⟨e, by rw [he]; rfl⟩

theorem scrambled_line_read_back :
    ConsoleCommand.ofLine " aws --disable-pump --start   --activation-time -20 --valve-pin-id 4" =
      .ok (.watering {
        start := some "", activation := some (-20), line := ⟨some 4, none⟩
        disable := ⟨false, true⟩ }) := by
  have hwritable : ∀ c ∈ [WateringCommand.setLine .valve 4, .enable .pump false,
      .setDuration .activation (-20), .start none], c.Writable := by
    simp only [List.forall_mem_cons]
    exact ⟨⟨by decide, by decide⟩, trivial, ⟨by decide, by decide⟩, trivial, nofun⟩
  refine (lines_read_back _).read _ (fun c hc => ?_) (fun r => by cases r <;> decide)
    ⟨"aws", by decide, [.enable .pump false, .start none, .setDuration .activation (-20),
      .setLine .valve 4], ⟨by decide, fun c => ?_⟩, Text.spells_words _⟩
  · exact hwritable c (WateringOptions.mem_commands.mpr hc)
  · rw [← WateringOptions.mem_commands]
    exact List.Perm.mem_iff (by decide)

end Console

end Irrigation
