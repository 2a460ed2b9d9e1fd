import Irrigation.Proofs.Text.Spelling
import Irrigation.Text.Inspect

/-!
# Line breaks in texts

Seven characters end a line, on one terminal or another. `breaks` are those of a text, and a text
without any is one line (`OneLine`), also when it is read back from between line feeds (`lines`).
Words are, and so are numbers; a text for inspection is one whatever it shows (`oneLine_inspect`).
-/

namespace Irrigation.Text

/-- The characters that end a line: line feed, vertical tab, form feed, carriage return, next line,
and the separators of lines and paragraphs. -/
def breakMarks : List Char := ['\n', '\x0b', '\x0c', '\r', '\u0085', '\u2028', '\u2029']

/-- The characters of a text that end a line. -/
def breaks (text : String) : List Char := text.toList.filter breakMarks.contains

/-- No character of the text ends a line. -/
def OneLine (text : String) : Prop := breaks text = []

instance (text : String) : Decidable (OneLine text) := inferInstanceAs (Decidable (_ = []))

variable {a b : String}

@[simp] theorem breaks_append (a b : String) : breaks (a ++ b) = breaks a ++ breaks b := by
  rw [breaks, String.toList_append, List.filter_append]
  rfl

theorem mem_breaks {c : Char} : c ∈ breaks a ↔ c ∈ a.toList ∧ c ∈ breakMarks := by
  simp [breaks]

theorem oneLine_iff : OneLine a ↔ ∀ c ∈ a.toList, c ∉ breakMarks := by
  simp [OneLine, List.eq_nil_iff_forall_not_mem, mem_breaks]

@[simp] theorem oneLine_append : OneLine (a ++ b) ↔ OneLine a ∧ OneLine b := by
  simp [OneLine]

/-- Words of one line in front of a text break no line. -/
theorem breaks_behind (ha : OneLine a) (text : String) : breaks (a ++ text) = breaks text := by
  rw [breaks_append, ha, List.nil_append]

theorem breaks_between (ha : OneLine a) (hb : OneLine b) (text : String) :
    breaks (a ++ text ++ b) = breaks text := by
  rw [breaks_append, breaks_behind ha, hb, List.append_nil]

@[simp] theorem oneLine_toString : OneLine (toString a) ↔ OneLine a := Iff.rfl

@[simp] theorem oneLine_ofList {cs : List Char} :
    OneLine (String.ofList cs) ↔ ∀ c ∈ cs, c ∉ breakMarks := by
  rw [oneLine_iff, String.toList_ofList]

/-! ## Lines -/

/-- The lines of a text: what stands between its line feeds. -/
def lines (text : String) : List String := (text.toList.splitOn '\n').map String.ofList

theorem lines_of_oneLine (h : OneLine a) : lines a = [a] := by
  have hfeed : a.toList.splitOn '\n' = [a.toList] :=
    List.splitOnP_eq_singleton fun c hc => by
      refine beq_eq_false_iff_ne.mpr ?_
      rintro rfl
      exact oneLine_iff.mp h _ hc (by decide)
  rw [lines, hfeed, List.map_singleton, String.ofList_toList]

/-- A line feed ends the lines before it. -/
theorem lines_append (a b : String) : lines (a ++ "\n" ++ b) = lines a ++ lines b := by
  have hfeed : (a ++ "\n" ++ b).toList = a.toList ++ '\n' :: b.toList := by simp
  have hsplit : (a ++ "\n" ++ b).toList.splitOn '\n' =
      a.toList.splitOn '\n' ++ b.toList.splitOn '\n' := by
    rw [hfeed]
    exact List.splitOnP_append_cons _ _ rfl
  rw [lines, hsplit, List.map_append]
  rfl

/-! ## Words and numbers -/

theorem isBlank_of_mem_breakMarks : ∀ c ∈ breakMarks, isBlank c = true :=
  List.all_eq_true.mp (by decide)

theorem oneLine_of_noBlank (h : ∀ c ∈ a.toList, isBlank c = false) : OneLine a :=
  oneLine_iff.mpr fun c hc hmark =>
    Bool.false_ne_true ((h c hc).symm.trans (isBlank_of_mem_breakMarks c hmark))

theorem noBlank_wordsFrom {cs word : List Char} (hword : ∀ c ∈ word, isBlank c = false) :
    ∀ w ∈ wordsFrom word cs, ∀ c ∈ w, isBlank c = false := by
  induction cs generalizing word with
  | nil =>
    rw [wordsFrom]
    split
    · exact fun w hw => absurd hw List.not_mem_nil
    · exact List.forall_mem_singleton.mpr hword
  | cons c cs ih =>
    have hnil : ∀ w ∈ wordsFrom [] cs, ∀ c ∈ w, isBlank c = false :=
      ih fun _ h => absurd h List.not_mem_nil
    rw [wordsFrom]
    split
    · split
      · exact hnil
      · exact List.forall_mem_cons.mpr ⟨hword, hnil⟩
    · next hc =>
      refine ih (List.forall_mem_append.mpr ⟨hword, ?_⟩)
      exact List.forall_mem_singleton.mpr (Bool.eq_false_iff.mpr hc)

/-- Whatever a text holds, each of its words is one line. -/
theorem oneLine_of_mem_words {w : String} (h : w ∈ words a) : OneLine w := by
  obtain ⟨cs, hcs, rfl⟩ := List.mem_map.mp h
  refine oneLine_of_noBlank fun c hc => ?_
  rw [String.toList_ofList] at hc
  exact noBlank_wordsFrom (fun _ h => absurd h List.not_mem_nil) cs hcs c hc

@[simp] theorem oneLine_int (n : Int) : OneLine n.repr :=
  oneLine_of_noBlank (isWord_toString n).noBlank

@[simp] theorem oneLine_nat (n : Nat) : OneLine n.repr := oneLine_int n

@[simp] theorem oneLine_uint32 (n : UInt32) : OneLine (toString n) := oneLine_nat n.toNat

@[simp] theorem oneLine_uint64 (n : UInt64) : OneLine (toString n) := oneLine_nat n.toNat

/-! ## Texts for inspection -/

theorem exists_digitChar_of_mem_toDigits {base : Nat} (hbase : 1 < base) {n : Nat} {c : Char}
    (h : c ∈ Nat.toDigits base n) : ∃ d < base, c = d.digitChar := by
  induction n using Nat.strongRecOn with
  | ind n ih =>
    rw [Nat.toDigits_eq_if hbase] at h
    split at h
    · next hlt => exact ⟨n, hlt, List.mem_singleton.mp h⟩
    · next hge =>
      rcases List.mem_append.mp h with h | h
      · exact ih (n / base) (Nat.div_lt_self (by omega) hbase) h
      · exact ⟨n % base, Nat.mod_lt _ (by omega), List.mem_singleton.mp h⟩

theorem digitChar_notMem_breakMarks : ∀ d < 16, d.digitChar ∉ breakMarks := by decide

/-- A character that ends a line is shown by others. -/
theorem oneLine_inspectChar_of_break {c : Char} (hc : c ∈ breakMarks) :
    OneLine (String.ofList (inspectChar c)) := by
  have hshown : breakMarks.all fun c => decide (OneLine (String.ofList (inspectChar c))) := by
    decide +kernel
  exact of_decide_eq_true (List.all_eq_true.mp hshown c hc)

theorem oneLine_inspectChar (c : Char) : OneLine (String.ofList (inspectChar c)) := by
  by_cases hc : c ∈ breakMarks
  · exact oneLine_inspectChar_of_break hc
  · have hdigits : OneLine (String.ofList (Nat.toDigits 16 c.toNat)) := by
      refine oneLine_ofList.mpr fun d hd => ?_
      obtain ⟨k, hk, rfl⟩ := exists_digitChar_of_mem_toDigits (by decide) hd
      exact digitChar_notMem_breakMarks k hk
    unfold inspectChar
    split
    case h_7 =>
      split
      · rw [String.ofList_append, String.ofList_append, oneLine_append, oneLine_append]
        exact ⟨⟨by decide, hdigits⟩, by decide⟩
      · exact oneLine_ofList.mpr (List.forall_mem_singleton.mpr hc)
    all_goals decide

/-- **A text for inspection is one line**, whatever text it shows. -/
theorem oneLine_inspect (text : String) : OneLine (inspect text) := by
  rw [inspect, oneLine_append, oneLine_append]
  refine ⟨⟨by decide, oneLine_ofList.mpr fun d hd => ?_⟩, by decide⟩
  obtain ⟨c, -, hd⟩ := List.mem_flatMap.mp hd
  exact oneLine_ofList.mp (oneLine_inspectChar c) d hd

end Irrigation.Text
