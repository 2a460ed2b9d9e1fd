import Irrigation.Text.Blank
import Irrigation.Text.Integer

/-!
# Spelling words and numbers

A text spells some words if they stand in it one after the other with blanks between them
(`Text.Spells`); then they are the words of the text (`Text.words_of_spells`). A number is written
in decimal with a minus in front if it is negative, and is read as it was written as long as it fits
64 bits (`Text.readInt64_toString`).
-/

namespace Irrigation.Text

/-! ## Words -/

/-- Characters that a line can hold as one word: there are some, and none is a blank. -/
structure IsWord (w : String) : Prop where
  nonempty : w ≠ ""
  noBlank : ∀ c ∈ w.toList, isBlank c = false

instance (w : String) : Decidable (IsWord w) :=
  decidable_of_iff (w ≠ "" ∧ w.toList.all (fun c => !isBlank c) = true)
    ⟨fun h => ⟨h.1, by simpa using h.2⟩, fun h => ⟨h.nonempty, by simpa using h.noBlank⟩⟩

/-- Characters spell words: the words stand one after the other, at least one blank between two, and
any blanks in front and behind. -/
inductive Spells : List Char → List String → Prop
  | nil : Spells [] []
  | blank {c : Char} {cs : List Char} {ws : List String} (hc : isBlank c = true)
      (h : Spells cs ws) : Spells (c :: cs) ws
  | last (w : String) : Spells w.toList [w]
  | word (w : String) {c : Char} {cs : List Char} {ws : List String} (hc : isBlank c = true)
      (h : Spells cs ws) : Spells (w.toList ++ c :: cs) (w :: ws)

variable {w : String} {ws : List String} {cs word : List Char}

theorem IsWord.toList_ne_nil (h : IsWord w) : w.toList ≠ [] := fun hnil =>
  h.nonempty (String.toList_inj.mp hnil)

/-- Characters that are no blanks are added to the word that is read. -/
theorem wordsFrom_append (hcs : ∀ c ∈ cs, isBlank c = false) (word rest : List Char) :
    wordsFrom word (cs ++ rest) = wordsFrom (word ++ cs) rest := by
  induction cs generalizing word with
  | nil => rw [List.nil_append, List.append_nil]
  | cons c cs ih =>
    have hc : isBlank c = false := hcs c List.mem_cons_self
    rw [List.cons_append, wordsFrom, hc, if_neg Bool.false_ne_true,
      ih fun c' hc' => hcs c' (List.mem_cons_of_mem _ hc'), List.append_assoc]
    rfl

/-- A blank ends the word that is read. -/
theorem wordsFrom_blank {c : Char} (hc : isBlank c = true) (hword : word ≠ []) (rest : List Char) :
    wordsFrom word (c :: rest) = word :: wordsFrom [] rest := by
  rw [wordsFrom, if_pos hc, List.isEmpty_eq_false_iff.mpr hword, if_neg Bool.false_ne_true]

theorem wordsFrom_of_spells (h : Spells cs ws) (hws : ∀ w ∈ ws, IsWord w) :
    wordsFrom [] cs = ws.map String.toList := by
  induction h with
  | nil => rfl
  | blank hc _ ih =>
    rw [wordsFrom, if_pos hc, List.isEmpty_nil, if_pos rfl]
    exact ih hws
  | last w =>
    have hw : IsWord w := hws w List.mem_cons_self
    have hread := wordsFrom_append hw.noBlank [] []
    rw [List.append_nil, List.nil_append] at hread
    rw [hread, wordsFrom, List.isEmpty_eq_false_iff.mpr hw.toList_ne_nil,
      if_neg Bool.false_ne_true]
    rfl
  | word w hc _ ih =>
    have hw : IsWord w := hws w List.mem_cons_self
    rw [wordsFrom_append hw.noBlank, List.nil_append, wordsFrom_blank hc hw.toList_ne_nil,
      ih fun w' hw' => hws w' (List.mem_cons_of_mem _ hw')]
    rfl

/-- **The words that a text spells are its words.** -/
theorem words_of_spells {text : String} (h : Spells text.toList ws) (hws : ∀ w ∈ ws, IsWord w) :
    words text = ws := by
  rw [words, wordsFrom_of_spells h hws, List.map_map]
  simp

theorem spells_wordsFrom (word cs : List Char) :
    Spells (word ++ cs) ((wordsFrom word cs).map String.ofList) := by
  induction cs generalizing word with
  | nil =>
    rw [wordsFrom, List.append_nil]
    split
    · next hempty =>
      rw [List.isEmpty_iff.mp hempty]
      exact .nil
    · have hlast := Spells.last (String.ofList word)
      rwa [String.toList_ofList] at hlast
  | cons c cs ih =>
    rw [wordsFrom]
    split
    · next hc =>
      split
      · next hempty =>
        rw [List.isEmpty_iff.mp hempty]
        exact .blank hc (ih [])
      · have hword := Spells.word (String.ofList word) hc (ih [])
        rwa [String.toList_ofList] at hword
    · have hnext := ih (word ++ [c])
      rwa [List.append_assoc] at hnext

/-- Every text spells its words. -/
theorem spells_words (text : String) : Spells text.toList (words text) :=
  spells_wordsFrom [] text.toList

/-! ## Numbers -/

theorem digitValue?_digitChar : ∀ d < 10, digitValue? d.digitChar = some d := by decide

/-- Reading goes on behind digits that were read. -/
theorem readDigits_append {bound value value' : Nat} {beyond : IntegerError}
    (h : readDigits bound beyond value cs = .ok value') (rest : List Char) :
    readDigits bound beyond value (cs ++ rest) = readDigits bound beyond value' rest := by
  induction cs generalizing value with
  | nil =>
    obtain rfl := Except.ok.inj h
    rfl
  | cons c cs ih =>
    rw [readDigits] at h
    rw [List.cons_append, readDigits]
    cases hc : digitValue? c with
    | none =>
      rw [hc] at h
      cases h
    | some d =>
      simp only [hc] at h
      split at h
      · next hle => simp only [if_pos hle, ih h]
      · cases h

/-- The digits of a number are read as the number, up to the bound. -/
theorem readDigits_toDigits {bound : Nat} (beyond : IntegerError) (n : Nat) (h : n ≤ bound) :
    readDigits bound beyond 0 (Nat.toDigits 10 n) = .ok n := by
  have hone : ∀ value d, d < 10 → value * 10 + d ≤ bound →
      readDigits bound beyond value [d.digitChar] = .ok (value * 10 + d) := by
    intro value d hd hle
    simp only [readDigits, digitValue?_digitChar d hd, if_pos hle]
  induction n using Nat.strongRecOn with
  | ind n ih =>
    rw [Nat.toDigits_eq_if (by decide)]
    split
    · next hlt => exact (hone 0 n hlt (by omega)).trans (by rw [Nat.zero_mul, Nat.zero_add])
    · next hge =>
      rw [readDigits_append (ih (n / 10) (by omega) (by omega)),
        hone (n / 10) (n % 10) (by omega) (by omega)]
      congr 1
      omega

/-- A number is written as digits, with a minus in front if it is negative. -/
theorem toList_toString (n : Int) : (toString n).toList =
    if n < 0 then '-' :: Nat.toDigits 10 n.natAbs else Nat.toDigits 10 n.natAbs := by
  cases n with
  | ofNat m =>
    rw [if_neg (by simp)]
    exact Nat.toList_repr
  | negSucc m =>
    rw [if_pos (Int.negSucc_lt_zero m)]
    change ("-" ++ (m + 1).repr).toList = _
    rw [String.toList_append, Nat.toList_repr]
    rfl

theorem exists_toList_toString (n : Int) : ∃ c cs, (∀ d ∈ c :: cs, d.isDigit = true) ∧
    c :: cs = Nat.toDigits 10 n.natAbs ∧
    (toString n).toList = if n < 0 then '-' :: c :: cs else c :: cs := by
  obtain ⟨c, cs, hcs⟩ := List.exists_cons_of_ne_nil (Nat.toDigits_ne_nil (n := n.natAbs) (b := 10))
  refine ⟨c, cs, fun d hd => ?_, hcs.symm, ?_⟩
  · rw [← hcs] at hd
    exact Nat.isDigit_of_mem_toDigits (by decide) (by decide) hd
  · rw [toList_toString, hcs]

theorem ne_of_isDigit {c : Char} (h : c.isDigit = true) : c ≠ '-' ∧ c ≠ '+' := by
  constructor <;> rintro rfl <;> exact absurd h (by decide)

/-- A number that fits 64 bits, one of them for the sign. -/
structure IsInt64 (n : Int) : Prop where
  low : -0x8000000000000000 ≤ n
  high : n < 0x8000000000000000

/-- **A number of 64 bits is read as it was written.** -/
theorem readInt64_toString {n : Int} (h : IsInt64 n) : readInt64 (toString n) = .ok n := by
  have hlow : -0x8000000000000000 ≤ n := h.low
  have hhigh : n < 0x8000000000000000 := h.high
  have hsize : UInt64.size / 2 = 0x8000000000000000 := rfl
  obtain ⟨c, cs, hdigits, hcs, htext⟩ := exists_toList_toString n
  unfold readInt64
  rw [htext]
  by_cases hneg : n < 0
  · rw [if_pos hneg]
    split
    · next h => cases h
    · next h => cases h
    · next h => cases h
    · next h =>
      rw [← (List.cons.inj h).2, hcs, readDigits_toDigits _ _ (by omega)]
      have hsame : -(n.natAbs : Int) = n := by omega
      exact congrArg Except.ok hsame
    · next h => exact absurd (List.cons.inj h).1 (by decide)
    · next h _ => exact absurd rfl (h _)
  · obtain ⟨hminus, hplus⟩ := ne_of_isDigit (hdigits c List.mem_cons_self)
    rw [if_neg hneg]
    split
    · next h => cases h
    · next h => exact absurd (List.cons.inj h).1 hminus
    · next h => exact absurd (List.cons.inj h).1 hplus
    · next h => exact absurd (List.cons.inj h).1 hminus
    · next h => exact absurd (List.cons.inj h).1 hplus
    · rw [hcs, readDigits_toDigits _ _ (by omega)]
      have hsame : (n.natAbs : Int) = n := by omega
      exact congrArg Except.ok hsame

theorem isBlank_of_isDigit {c : Char} (h : c.isDigit = true) : isBlank c = false := by
  rw [Char.isDigit_iff_toNat] at h
  have hlow : 48 ≤ c.toNat := h.1
  have hhigh : c.toNat ≤ 57 := h.2
  simp only [isBlank, Bool.or_eq_false_iff, Bool.and_eq_false_iff, decide_eq_false_iff_not,
    beq_eq_false_iff_ne]
  omega

/-- A number is one word. -/
theorem isWord_toString (n : Int) : IsWord (toString n) := by
  obtain ⟨c, cs, hdigits, -, htext⟩ := exists_toList_toString n
  refine ⟨fun hempty => ?_, fun d hd => ?_⟩
  · rw [hempty] at htext
    split at htext <;> cases htext
  · rw [htext] at hd
    split at hd
    · rcases List.mem_cons.mp hd with rfl | hd
      · decide
      · exact isBlank_of_isDigit (hdigits d hd)
    · exact isBlank_of_isDigit (hdigits d hd)

end Irrigation.Text
