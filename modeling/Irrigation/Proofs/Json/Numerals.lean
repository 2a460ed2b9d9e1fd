import Irrigation.Json.Number
import Irrigation.Proofs.Text.Spelling

/-!
# Numerals

A number is written as a numeral: perhaps a minus, digits without a zero in front of them, and
perhaps a fraction and an exponent (`Numeral.chars`). In front of anything that cannot go on with
it, such a numeral is read as the number it stands for (`Numeral.scanNumber_chars`). A whole number
of 64 bits, signed or unsigned, is written as a numeral that stands for it (`Numeral.value_ofInt`).
-/

namespace Irrigation.Json

/-- The characters of digits. -/
def digitChars (ds : List Nat) : List Char := ds.map Nat.digitChar

/-- Characters that go on with a numeral are none of these. -/
def EndsNumeral (cs : List Char) : Prop :=
  ∀ c ∈ cs.head?, Text.digitValue? c = none ∧ c ≠ '.' ∧ c ≠ 'e' ∧ c ≠ 'E'

variable {ds : List Nat} {cs : List Char}

/-- Digits are read up to what is no digit. -/
theorem spanDigits_append (hds : ∀ d ∈ ds, d < 10)
    (hcs : ∀ c ∈ cs.head?, Text.digitValue? c = none) :
    spanDigits (digitChars ds ++ cs) = (ds, cs) := by
  induction ds with
  | nil =>
    cases cs with
    | nil => rfl
    | cons c cs =>
      change spanDigits (c :: cs) = _
      rw [spanDigits, hcs c rfl]
  | cons d ds ih =>
    change spanDigits (d.digitChar :: (digitChars ds ++ cs)) = _
    rw [spanDigits, Text.digitValue?_digitChar d (hds d List.mem_cons_self)]
    simp only [ih fun d' hd' => hds d' (List.mem_cons_of_mem _ hd')]

namespace Numeral

variable {n : Numeral}

/-- A minus in front of digits, if there is one. -/
def signed (negative : Bool) (ds : List Nat) : List Char :=
  if negative then '-' :: digitChars ds else digitChars ds

/-- The characters of the fraction. -/
def fractionChars (n : Numeral) : List Char :=
  match n.fraction with
  | none => []
  | some ds => '.' :: digitChars ds

/-- The characters of the exponent. -/
def exponentChars (n : Numeral) : List Char :=
  match n.exponent with
  | none => []
  | some (negative, ds) => 'e' :: signed negative ds

/-- The characters of a numeral. -/
def chars (n : Numeral) : List Char :=
  signed n.negative n.whole ++ (n.fractionChars ++ n.exponentChars)

/-- A numeral can be written: there are digits wherever there have to be some, and no zero stands in
front of other digits. -/
structure Proper (n : Numeral) : Prop where
  digits : ∀ d ∈ n.whole, d < 10
  nonempty : n.whole ≠ []
  noZero : ∀ d ds, n.whole ≠ 0 :: d :: ds
  fraction : ∀ ds, n.fraction = some ds → ds ≠ [] ∧ ∀ d ∈ ds, d < 10
  exponent : ∀ negative ds, n.exponent = some (negative, ds) → ds ≠ [] ∧ ∀ d ∈ ds, d < 10

/-- What reading a numeral gives: the number that it stands for, and what stands behind it. -/
def scan (n : Numeral) (cs : List Char) : NumberScan :=
  ⟨(n.value.map Except.ok).getD (.error .malformed), .ok cs⟩

/-! ## Reading -/

theorem exists_digitChars (hnonempty : ds ≠ []) (hds : ∀ d ∈ ds, d < 10) :
    ∃ c rest, digitChars ds = c :: rest ∧ c ≠ '-' ∧ c ≠ '+' := by
  have hdigit : ∀ d < 10, d.digitChar ≠ '-' ∧ d.digitChar ≠ '+' := by decide
  obtain ⟨d, ds, rfl⟩ := List.exists_cons_of_ne_nil hnonempty
  exact ⟨_, _, rfl, hdigit d (hds d List.mem_cons_self)⟩

theorem scanExponent_signed {negative : Bool} (hnonempty : ds ≠ []) (hds : ∀ d ∈ ds, d < 10)
    (hcs : EndsNumeral cs) (n : Numeral) :
    scanExponent n (signed negative ds ++ cs) =
      scan { n with exponent := some (negative, ds) } cs := by
  have hspan := spanDigits_append hds fun c hc => (hcs c hc).1
  obtain ⟨c, rest, hc, hminus, hplus⟩ := exists_digitChars hnonempty hds
  obtain ⟨d, ds, rfl⟩ := List.exists_cons_of_ne_nil hnonempty
  cases negative with
  | true =>
    change scanExponent n ('-' :: (digitChars (d :: ds) ++ cs)) = _
    simp only [scanExponent, hspan]
    rfl
  | false =>
    change scanExponent n (digitChars (d :: ds) ++ cs) = _
    rw [hc, List.cons_append] at hspan ⊢
    unfold scanExponent
    split
    next negative cs' heq =>
    split at heq
    · next h => exact absurd (List.cons.inj h).1 hplus
    · next h => exact absurd (List.cons.inj h).1 hminus
    · obtain ⟨rfl, rfl⟩ := Prod.mk.inj heq
      rw [hspan]
      rfl

theorem scanAfterFraction_exponentChars (hn : n.Proper) (hcs : EndsNumeral cs) :
    scanAfterFraction { n with exponent := none } (n.exponentChars ++ cs) = n.scan cs := by
  obtain ⟨sign, whole, fraction, exponent⟩ := n
  cases exponent with
  | none =>
    unfold scanAfterFraction
    split
    · next heq => exact absurd rfl (hcs 'e' (by rw [show cs = _ from heq]; rfl)).2.2.1
    · next heq => exact absurd rfl (hcs 'E' (by rw [show cs = _ from heq]; rfl)).2.2.2
    · rfl
  | some e =>
    obtain ⟨negative, ds⟩ := e
    obtain ⟨hnonempty, hds⟩ := hn.exponent negative ds rfl
    exact scanExponent_signed hnonempty hds hcs _

/-- The end of a fraction is no digit. -/
theorem noDigit_exponentChars (hcs : EndsNumeral cs) :
    ∀ c ∈ (n.exponentChars ++ cs).head?, Text.digitValue? c = none ∧ c ≠ '.' := by
  intro c hc
  unfold exponentChars at hc
  split at hc
  · exact ⟨(hcs c hc).1, (hcs c hc).2.1⟩
  · obtain rfl : 'e' = c := Option.some.inj hc
    exact ⟨by decide, by decide⟩

theorem scanAfterWhole_fractionChars (hn : n.Proper) (hcs : EndsNumeral cs) :
    scanAfterWhole { n with fraction := none, exponent := none }
      (n.fractionChars ++ (n.exponentChars ++ cs)) = n.scan cs := by
  have hexponent := scanAfterFraction_exponentChars hn hcs
  have hend := noDigit_exponentChars (n := n) hcs
  obtain ⟨sign, whole, fraction, exponent⟩ := n
  cases fraction with
  | none =>
    rw [← hexponent]
    unfold scanAfterWhole
    split
    · next heq => exact absurd rfl (hend '.' (by rw [show _ ++ cs = _ from heq]; rfl)).2
    · rfl
  | some ds =>
    obtain ⟨hnonempty, hds⟩ := hn.fraction ds rfl
    have hspan := spanDigits_append hds fun c hc => (hend c hc).1
    obtain ⟨d, ds, rfl⟩ := List.exists_cons_of_ne_nil hnonempty
    rw [← hexponent]
    change scanAfterWhole _ ('.' :: (digitChars (d :: ds) ++ _)) = _
    simp only [scanAfterWhole, hspan]

theorem scanUnsigned_digitChars (hn : n.Proper) (hcs : EndsNumeral cs) :
    scanUnsigned n.negative
      (digitChars n.whole ++ (n.fractionChars ++ (n.exponentChars ++ cs))) = n.scan cs := by
  have hspan : spanDigits (digitChars n.whole ++ (n.fractionChars ++ (n.exponentChars ++ cs))) =
      (n.whole, n.fractionChars ++ (n.exponentChars ++ cs)) := by
    refine spanDigits_append hn.digits fun c hc => ?_
    unfold fractionChars at hc
    split at hc
    · exact (noDigit_exponentChars hcs c hc).1
    · obtain rfl : '.' = c := Option.some.inj hc
      decide
  rw [← scanAfterWhole_fractionChars hn hcs, scanUnsigned, hspan]
  split
  · next heq => exact absurd (Prod.mk.inj heq).1 hn.nonempty
  · next heq => exact absurd (Prod.mk.inj heq).1 hn.nonempty
  · next heq => exact absurd (Prod.mk.inj heq).1 (hn.noZero _ _)
  · next heq =>
    obtain ⟨rfl, rfl⟩ := Prod.mk.inj heq
    rfl

/-- **A numeral is read as the number that it stands for**, in front of anything that cannot go on
with it. -/
theorem scanNumber_chars (hn : n.Proper) (hcs : EndsNumeral cs) :
    scanNumber (n.chars ++ cs) = n.scan cs := by
  have hscan := scanUnsigned_digitChars hn hcs
  obtain ⟨c, rest, hc, hminus, -⟩ := exists_digitChars hn.nonempty hn.digits
  rw [chars, List.append_assoc, List.append_assoc]
  cases hnegative : n.negative with
  | true =>
    rw [hnegative] at hscan
    exact hscan
  | false =>
    rw [hnegative, hc] at hscan
    rw [signed, if_neg Bool.false_ne_true, hc, List.cons_append, scanNumber]
    · exact hscan
    · exact fun _ h => hminus (List.cons.inj h).1

/-! ## Whole numbers -/

/-- The digits of a number. -/
def decimals (n : Nat) : List Nat := if n < 10 then [n] else decimals (n / 10) ++ [n % 10]

theorem digitChars_decimals (n : Nat) : digitChars (decimals n) = Nat.toDigits 10 n := by
  induction n using decimals.induct with
  | case1 n h =>
    rw [decimals, if_pos h, Nat.toDigits_eq_if (by decide), if_pos h]
    rfl
  | case2 n h ih =>
    rw [decimals, if_neg h, Nat.toDigits_eq_if (by decide), if_neg h, ← ih]
    exact List.map_append

theorem decimals_lt (n : Nat) : ∀ d ∈ decimals n, d < 10 := by
  induction n using decimals.induct with
  | case1 n h =>
    rw [decimals, if_pos h]
    exact List.forall_mem_singleton.mpr h
  | case2 n h ih =>
    rw [decimals, if_neg h]
    exact List.forall_mem_append.mpr
      ⟨ih, List.forall_mem_singleton.mpr (Nat.mod_lt n (by decide))⟩

/-- The first digit is a zero only if the number is. -/
theorem exists_decimals (n : Nat) : ∃ d ds, decimals n = d :: ds ∧ (d = 0 → n = 0 ∧ ds = []) := by
  induction n using decimals.induct with
  | case1 n h => exact ⟨n, [], by rw [decimals, if_pos h], fun hn => ⟨hn, rfl⟩⟩
  | case2 n h ih =>
    obtain ⟨d, ds, hds, hzero⟩ := ih
    refine ⟨d, ds ++ [n % 10], by rw [decimals, if_neg h, hds, List.cons_append], fun hd => ?_⟩
    have hn : n / 10 = 0 := (hzero hd).1
    omega

theorem takeDigits_append {start value d : Nat} (h : takeDigits start ds = (value, 0))
    (hd : value * 10 + d < UInt64.size) : takeDigits start (ds ++ [d]) = (value * 10 + d, 0) := by
  induction ds generalizing start with
  | nil =>
    obtain rfl := (Prod.mk.inj h).1
    rw [List.nil_append, takeDigits, if_pos hd]
    rfl
  | cons d' ds ih =>
    rw [takeDigits] at h
    rw [List.cons_append, takeDigits]
    split at h
    · next hlt => rw [if_pos hlt, ih h]
    · exact absurd (Prod.mk.inj h).2 (Nat.succ_ne_zero _)

theorem takeDigits_decimals {n : Nat} (hn : n < UInt64.size) :
    takeDigits 0 (decimals n) = (n, 0) := by
  induction n using decimals.induct with
  | case1 n h =>
    rw [decimals, if_pos h, takeDigits, if_pos (by omega), takeDigits]
    simp
  | case2 n h ih =>
    have hvalue : n / 10 * 10 + n % 10 = n := by omega
    rw [decimals, if_neg h, takeDigits_append (ih (by omega)) (by omega), hvalue]

/-- The numeral of a whole number. -/
def ofInt (i : Int) : Numeral := ⟨decide (i < 0), decimals i.natAbs, none, none⟩

theorem proper_ofInt (i : Int) : (ofInt i).Proper := by
  obtain ⟨d, ds, hds, hzero⟩ := exists_decimals i.natAbs
  refine ⟨decimals_lt _, ?_, ?_, nofun, nofun⟩
  · change decimals i.natAbs ≠ []
    rw [hds]
    exact List.cons_ne_nil d ds
  · intro d' ds' heq
    change decimals i.natAbs = _ at heq
    obtain ⟨hd, hrest⟩ := List.cons.inj (hds.symm.trans heq)
    rw [(hzero hd).2] at hrest
    cases hrest

theorem chars_ofInt (i : Int) : (ofInt i).chars = (toString i).toList := by
  have hchars : (ofInt i).chars = signed (decide (i < 0)) (decimals i.natAbs) :=
    List.append_nil _
  rw [hchars, signed, digitChars_decimals, Text.toList_toString]
  simp only [decide_eq_true_eq]

/-- **A whole number of 64 bits is what its numeral stands for.** -/
theorem value_ofInt {i : Int} (hlow : -0x8000000000000000 ≤ i) (hhigh : i < 0x10000000000000000) :
    (ofInt i).value = some (.whole i) := by
  have hsize : UInt64.size = 0x10000000000000000 := rfl
  have htake : takeDigits 0 (decimals i.natAbs) = (i.natAbs, 0) := takeDigits_decimals (by omega)
  by_cases hneg : i < 0
  · have hbounds : i.natAbs ≠ 0 ∧ i.natAbs ≤ UInt64.size / 2 := by omega
    have hvalue : -(i.natAbs : Int) = i := by omega
    rw [ofInt, decide_eq_true hneg]
    simp only [value, htake, if_true, Bool.not_true, Bool.false_eq_true, if_false, if_pos hbounds,
      hvalue]
  · have hvalue : (i.natAbs : Int) = i := by omega
    rw [ofInt, decide_eq_false hneg]
    simp only [value, htake, if_true, Bool.not_false, hvalue]

end Numeral

end Irrigation.Json
