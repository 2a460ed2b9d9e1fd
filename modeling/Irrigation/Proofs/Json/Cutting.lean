import Irrigation.Json.Tree
import Irrigation.Proofs.Json.Numerals

/-!
# Cutting a text into its pieces

A text of values consists of pieces: brackets, commas and colons, words, numbers and quoted texts
(`Piece.WrittenAs`). They may be spaced out with blanks in any way (`Spaced`); the lexemes of a text
that consists of some pieces are those of the pieces, in their order (`tokens_of_spaced`).
-/

namespace Irrigation.Json

/-! ## Quoted texts -/

theorem hexValue?_hexDigit : ∀ n < 16, hexValue? (hexDigit n) = some n := by decide

/-- A control character is what the number in its escape stands for. -/
theorem hexCode_hexDigit {n : Nat} (hn : n < 32) (rest : List Char) :
    hexCode ('0' :: '0' :: hexDigit (n / 16) :: hexDigit (n % 16) :: rest) = .ok n := by
  have hzero : hexValue? '0' = some 0 := by decide
  have hvalue : ((0 * 16 + 0) * 16 + n / 16) * 16 + n % 16 = n := by omega
  simp only [hexCode, hzero, hexValue?_hexDigit (n / 16) (by omega),
    hexValue?_hexDigit (n % 16) (by omega), hvalue]

theorem escapedCode_hexDigit {c : Char} (hc : c.toNat < 32) (rest : List Char) :
    escapedCode ('0' :: '0' :: hexDigit (c.toNat / 16) :: hexDigit (c.toNat % 16) :: rest) =
      .ok (c, 0) := by
  have hlow : ¬(0xdc00 ≤ c.toNat ∧ c.toNat ≤ 0xdfff) := by omega
  have hhigh : ¬(0xd800 ≤ c.toNat ∧ c.toNat ≤ 0xdbff) := by omega
  simp only [escapedCode, hexCode_hexDigit hc, if_neg hlow, if_neg hhigh, Char.ofNat_toNat]

/-- An escaped character is read as the character. -/
theorem readQuoted_escape (c : Char) (rest : List Char) :
    readQuoted 0 (escape c ++ rest) = (readQuoted 0 rest).map (c :: ·) := by
  unfold escape
  split
  any_goals rfl
  next hquote hbackslash _ _ _ _ _ =>
  split
  · next hc =>
    change readQuoted 0 ('\\' :: 'u' :: '0' :: '0' :: _ :: _ :: rest) = _
    rw [readQuoted]
    simp only [escapedCode_hexDigit hc]
    rfl
  · next hc =>
    rw [List.cons_append, List.nil_append, readQuoted, if_neg hc]
    · exact hquote
    · exact fun h _ => hbackslash h
    · exact fun _ h _ => hbackslash h
    · exact fun _ _ h _ => hbackslash h

/-- An escaped character is passed over. -/
theorem skipQuoted_escape (c : Char) (rest : List Char) : ∃ bytes, skipQuoted 0 (escape c ++ rest) =
    (skipQuoted 0 rest).map fun (rest, n) => (rest, n + bytes) := by
  unfold escape
  split
  any_goals exact ⟨_, rfl⟩
  next hquote hbackslash _ _ _ _ _ =>
  split
  · next hc =>
    refine ⟨(hexDigit (c.toNat % 16)).utf8Size + ((hexDigit (c.toNat / 16)).utf8Size +
      ('0'.utf8Size + ('0'.utf8Size + 2))), ?_⟩
    change skipQuoted 0 ('\\' :: 'u' :: '0' :: '0' :: _ :: _ :: rest) = _
    rw [skipQuoted]
    simp only [hexCode_hexDigit hc, skipQuoted]
    cases skipQuoted 0 rest <;> simp only [Except.map, Nat.add_assoc]
  · next hc =>
    refine ⟨c.utf8Size, ?_⟩
    rw [List.cons_append, List.nil_append, skipQuoted, if_neg hc]
    · exact hquote
    · exact fun h _ => hbackslash h
    · exact fun _ h _ => hbackslash h
    · exact fun _ _ h _ => hbackslash h

theorem readQuoted_flatMap (cs rest : List Char) :
    readQuoted 0 (cs.flatMap escape ++ '"' :: rest) = .ok cs := by
  induction cs with
  | nil => rfl
  | cons c cs ih =>
    rw [List.flatMap_cons, List.append_assoc, readQuoted_escape, ih]
    rfl

theorem skipQuoted_flatMap (cs rest : List Char) :
    ∃ bytes, skipQuoted 0 (cs.flatMap escape ++ '"' :: rest) = .ok (rest, bytes) := by
  induction cs with
  | nil => exact ⟨1, rfl⟩
  | cons c cs ih =>
    obtain ⟨n, hn⟩ := ih
    obtain ⟨bytes, hbytes⟩ := skipQuoted_escape c (cs.flatMap escape ++ '"' :: rest)
    rw [List.flatMap_cons, List.append_assoc, hbytes, hn]
    exact ⟨_, rfl⟩

/-! ## Pieces -/

/-- What a text of values consists of. -/
inductive Piece
  | openBracket
  | closeBracket
  | openBrace
  | closeBrace
  | comma
  | colon
  | word (w : Word)
  | number (n : Number)
  | quoted (s : String)

namespace Piece

/-- The token that a piece is read as. -/
def token : Piece → Token
  | .openBracket => .openBracket
  | .closeBracket => .closeBracket
  | .openBrace => .openBrace
  | .closeBrace => .closeBrace
  | .comma => .comma
  | .colon => .colon
  | .word w => .word (.ok w)
  | .number n => .number (.ok n) (.ok ())
  | .quoted s => .quoted (.ok s) (.ok ())

/-- How a piece is written: a number as any numeral that stands for it, and every other piece in one
way. -/
inductive WrittenAs : Piece → List Char → Prop
  | openBracket : WrittenAs .openBracket ['[']
  | closeBracket : WrittenAs .closeBracket [']']
  | openBrace : WrittenAs .openBrace ['\x7b']
  | closeBrace : WrittenAs .closeBrace ['\x7d']
  | comma : WrittenAs .comma [',']
  | colon : WrittenAs .colon [':']
  | null : WrittenAs (.word .null) "null".toList
  | true : WrittenAs (.word .true) "true".toList
  | false : WrittenAs (.word .false) "false".toList
  | number {numeral : Numeral} {n : Number} (hproper : numeral.Proper)
    (hvalue : numeral.value = some n) : WrittenAs (.number n) numeral.chars
  | quoted (s : String) : WrittenAs (.quoted s) (quote s).toList

/-- What may stand right behind a piece. -/
def Before : Piece → List Char → Prop
  | .number _, cs => EndsNumeral cs
  | _, _ => True

end Piece

/-- The blanks that may stand between pieces. -/
def blanks : List Char := [' ', '\t', '\n', '\r']

variable {p : Piece} {ps qs : List Piece} {text cs : List Char}

/-- The characters that a numeral can begin with. -/
def numeralFronts : List Char := ['-', '0', '1', '2', '3', '4', '5', '6', '7', '8', '9']

theorem exists_chars {numeral : Numeral} (hproper : numeral.Proper) :
    ∃ c rest, numeral.chars = c :: rest ∧ c ∈ numeralFronts := by
  have hdigit : ∀ d < 10, Nat.digitChar d ∈ numeralFronts := by decide
  obtain ⟨d, ds, hds⟩ := List.exists_cons_of_ne_nil hproper.nonempty
  unfold Numeral.chars Numeral.signed
  split
  · exact ⟨_, _, rfl, List.mem_cons_self⟩
  · rw [hds]
    exact ⟨_, _, rfl, hdigit d (hproper.digits d (hds ▸ List.mem_cons_self))⟩

/-- The token of a number with the given front. -/
def numberToken (c : Char) (rest : List Char) : Token × Option (List Char) × Nat :=
  let scan := scanNumber (c :: rest)
  match scan.loose with
  | .ok after => (.number scan.strict (.ok ()), some after, rest.length + 1 - after.length)
  | .error f => (.number scan.strict (.error f), none, 1)

theorem nextToken_numeral (rest : List Char) :
    ∀ c ∈ numeralFronts, nextToken c rest = numberToken c rest := by
  simp only [numeralFronts, List.forall_mem_cons]
  exact ⟨rfl, rfl, rfl, rfl, rfl, rfl, rfl, rfl, rfl, rfl, rfl, nofun⟩

/-- **The front of a text is read as the piece that is written there.** -/
theorem nextToken_of_writtenAs (hp : p.WrittenAs text) (hbefore : p.Before cs) :
    ∃ c rest bytes, text = c :: rest ∧ c ∉ blanks ∧
      nextToken c (rest ++ cs) = (p.token, some cs, bytes) := by
  cases hp with
  | @number numeral n hproper hvalue =>
    have hblanks : numeralFronts.all fun c => !blanks.contains c := by decide
    obtain ⟨c, rest, hchars, hc⟩ := exists_chars hproper
    have hscan := Numeral.scanNumber_chars hproper hbefore
    rw [Numeral.scan, hvalue, hchars] at hscan
    have hcblank : blanks.contains c = false := by simpa using List.all_eq_true.mp hblanks c hc
    refine ⟨c, rest, (rest ++ cs).length + 1 - cs.length, hchars, by simpa using hcblank, ?_⟩
    rw [nextToken_numeral _ c hc, numberToken, ← List.cons_append, hscan]
    rfl
  | quoted s =>
    obtain ⟨bytes, hbytes⟩ := skipQuoted_flatMap s.toList cs
    have hread := readQuoted_flatMap s.toList cs
    refine ⟨'"', s.toList.flatMap escape ++ ['"'], bytes + 1, ?_, by decide, ?_⟩
    · simp [quote]
    · rw [List.append_assoc]
      simp only [nextToken, List.cons_append, List.nil_append, hbytes, hread, Except.map,
        String.ofList_toList]
      rfl
  | _ => exact ⟨_, _, _, rfl, by decide, rfl⟩

/-! ## Spaced pieces -/

/-- A text consists of pieces, in their order, with any blanks between them. -/
inductive Spaced : List Char → List Piece → Prop
  | nil : Spaced [] []
  | blank {c : Char} {cs : List Char} {ps : List Piece} (hc : c ∈ blanks) (h : Spaced cs ps) :
    Spaced (c :: cs) ps
  | piece {p : Piece} {text cs : List Char} {ps : List Piece} (hp : p.WrittenAs text)
    (hbefore : p.Before cs) (h : Spaced cs ps) : Spaced (text ++ cs) (p :: ps)

theorem cut_blank {c : Char} (hc : c ∈ blanks) (steps : Nat) (here : Spot) (cs : List Char) :
    ∃ here', cut (steps + 1) here (c :: cs) = cut steps here' cs := by
  revert c
  simp only [blanks, List.forall_mem_cons]
  exact ⟨⟨_, rfl⟩, ⟨_, rfl⟩, ⟨_, rfl⟩, ⟨_, rfl⟩, nofun⟩

theorem cut_token {c : Char} {rest after : List Char} {token : Token} {bytes : Nat}
    (hc : c ∉ blanks) (hnext : nextToken c rest = (token, some after, bytes)) (steps : Nat)
    (here : Spot) : ∃ l stop, l.token = token ∧
      (cut (steps + 1) here (c :: rest)).all = l :: (cut steps stop after).all := by
  obtain ⟨hspace, htab, hnewline, hreturn⟩ : c ≠ ' ' ∧ c ≠ '\t' ∧ c ≠ '\n' ∧ c ≠ '\r' := by
    simpa [blanks] using hc
  simp only [cut, if_neg hnewline, hspace, htab, hreturn, or_self, if_false, hnext]
  exact ⟨_, _, rfl, rfl⟩

/-- **The lexemes of a text are those of the pieces that it consists of.** -/
theorem tokens_cut (h : Spaced cs ps) (steps : Nat) (hsteps : cs.length ≤ steps) (here : Spot) :
    (cut steps here cs).all.map Lexeme.token = ps.map Piece.token := by
  induction h generalizing steps here with
  | nil => cases steps <;> rfl
  | @blank c cs ps hc h ih =>
    rw [List.length_cons] at hsteps
    obtain ⟨steps, rfl⟩ := Nat.exists_eq_succ_of_ne_zero (Nat.ne_zero_of_lt hsteps)
    obtain ⟨here', hcut⟩ := cut_blank hc steps here cs
    rw [hcut, ih steps (Nat.le_of_succ_le_succ hsteps)]
  | @piece p text cs ps hp hbefore h ih =>
    obtain ⟨c, rest, bytes, rfl, hc, hnext⟩ := nextToken_of_writtenAs hp hbefore
    rw [List.cons_append, List.length_cons, List.length_append] at hsteps
    obtain ⟨steps, rfl⟩ := Nat.exists_eq_succ_of_ne_zero (Nat.ne_zero_of_lt hsteps)
    obtain ⟨l, stop, htoken, hcut⟩ := cut_token hc hnext steps here
    rw [List.cons_append, hcut, List.map_cons, List.map_cons, htoken, ih steps (by omega)]

theorem tokens_of_spaced {text : String} (h : Spaced text.toList ps) :
    (lexemes text).all.map Lexeme.token = ps.map Piece.token :=
  tokens_cut h _ (Nat.le_refl _) _

end Irrigation.Json
