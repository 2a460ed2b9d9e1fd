import Irrigation.Proofs.Json.Building
import Mathlib.Data.List.Forall2

/-!
# The layouts of a value

A value is written on one line without blanks, or with each entry on a line of its own. As long as
its numbers are whole and fit 64 bits (`Value.Whole`), both texts write the value
(`Value.Whole.writtenAs_compact`, `Value.Whole.writtenAs_pretty`), and so hold it.
-/

namespace Irrigation.Json

/-- All numbers of a value are whole and fit 64 bits, signed or unsigned. -/
inductive Value.Whole : Value → Prop
  | null : Whole .null
  | bool (b : Bool) : Whole (.bool b)
  | number {i : Int} (hlow : -0x8000000000000000 ≤ i) (hhigh : i < 0x10000000000000000) :
    Whole (.number (.whole i))
  | text (s : String) : Whole (.text s)
  | array {items : List Value} (h : ∀ v ∈ items, Whole v) : Whole (.array items)
  | object {members : Members} (h : ∀ m ∈ members, Whole m.2) : Whole (.object members)

/-- A text writes pieces, whatever stands behind it. -/
def Writes (text : String) (ps : List Piece) : Prop :=
  ∀ ⦃cs : List Char⦄ ⦃qs : List Piece⦄, EndsNumeral cs → Spaced cs qs →
    Spaced (text.toList ++ cs) (ps ++ qs)

variable {text : String} {p : Piece} {ps : List Piece} {v : Value} {cs : List Char}

theorem endsNumeral_nil : EndsNumeral [] := nofun

/-- What can stand behind a value ends a numeral. -/
theorem endsNumeral_cons {c : Char} (hc : c ∈ [',', ']', '\x7d', '\n']) :
    EndsNumeral (c :: cs) := by
  have hends : ∀ c ∈ [',', ']', '\x7d', '\n'],
      Text.digitValue? c = none ∧ c ≠ '.' ∧ c ≠ 'e' ∧ c ≠ 'E' := by
    simp only [List.forall_mem_cons]
    exact ⟨by decide, by decide, by decide, by decide, nofun⟩
  intro c' hc'
  obtain rfl : c = c' := Option.some.inj hc'
  exact hends c hc

theorem Spaced.blanks {front : List Char} (hfront : ∀ c ∈ front, c ∈ blanks) (h : Spaced cs ps) :
    Spaced (front ++ cs) ps := by
  induction front with
  | nil => exact h
  | cons c front ih =>
    obtain ⟨hc, hfront⟩ := List.forall_mem_cons.mp hfront
    exact .blank hc (ih hfront)

/-! ## Scalars -/

theorem writes_piece (hp : p.WrittenAs text.toList) (hbefore : ∀ cs, EndsNumeral cs → p.Before cs) :
    Writes text [p] := fun cs _ hcs h => .piece hp (hbefore cs hcs) h

theorem writes_quote (s : String) : Writes (quote s) [.quoted s] :=
  writes_piece (.quoted s) fun _ _ => trivial

theorem writes_bool (b : Bool) : Writes (Value.bool b).compact (Value.bool b).pieces := by
  cases b
  · exact writes_piece .false fun _ _ => trivial
  · exact writes_piece .true fun _ _ => trivial

theorem writes_number {i : Int} (hlow : -0x8000000000000000 ≤ i) (hhigh : i < 0x10000000000000000) :
    Writes (toString i) [.number (.whole i)] := by
  refine writes_piece ?_ fun _ h => h
  rw [← Numeral.chars_ofInt]
  exact .number (Numeral.proper_ofInt i) (Numeral.value_ofInt hlow hhigh)

/-! ## Entries between brackets -/

/-- Entries with commas between them, and perhaps blanks behind each comma, write the pieces of the
entries with commas between them. -/
theorem writes_intercalate (sep : String) (front : List Char) (hsep : sep.toList = ',' :: front)
    (hfront : ∀ c ∈ front, c ∈ blanks) {entries : List String} {pss : List (List Piece)}
    (h : List.Forall₂ Writes entries pss) :
    Writes (sep.intercalate entries) ([.comma].intercalate pss) := by
  intro cs qs hcs hqs
  induction h with
  | nil => exact hqs
  | @cons e ps entries pss hentry hrest ih =>
    cases hrest with
    | nil =>
      rw [String.intercalate_singleton, List.intercalate_singleton]
      exact hentry hcs hqs
    | cons hnext hrest =>
      rw [String.intercalate_cons_cons, List.intercalate_cons_cons, String.toList_append,
        String.toList_append, hsep]
      simp only [List.append_assoc, List.cons_append, List.nil_append]
      exact hentry (endsNumeral_cons (by decide))
        (.piece .comma trivial (Spaced.blanks hfront ih))

/-- A name and a value with a colon between them, and perhaps blanks behind the colon. -/
theorem writes_member {colon : String} (front : List Char) (hcolon : colon.toList = ':' :: front)
    (hfront : ∀ c ∈ front, c ∈ blanks) (k : String) (h : Writes text ps) :
    Writes (quote k ++ colon ++ text) (.quoted k :: .colon :: ps) := by
  intro cs qs hcs hqs
  rw [String.toList_append, String.toList_append, hcolon]
  simp only [List.append_assoc, List.cons_append]
  exact .piece (.quoted k) trivial
    (.piece .colon trivial (Spaced.blanks hfront (h hcs hqs)))

/-- A pair of brackets that enclose entries. -/
structure Brackets (opening closing : String) (first last : Piece) : Prop where
  opens : ∀ ⦃cs ps⦄, Spaced cs ps → Spaced (opening.toList ++ cs) (first :: ps)
  closes : ∀ ⦃cs ps⦄, Spaced cs ps → Spaced (closing.toList ++ cs) (last :: ps)
  ends : ∀ cs, EndsNumeral (closing.toList ++ cs)

theorem brackets : Brackets "[" "]" .openBracket .closeBracket where
  opens := fun _ _ h => .piece .openBracket trivial h
  closes := fun _ _ h => .piece .closeBracket trivial h
  ends := fun _ => endsNumeral_cons (by decide)

theorem braces : Brackets "\x7b" "\x7d" .openBrace .closeBrace where
  opens := fun _ _ h => .piece .openBrace trivial h
  closes := fun _ _ h => .piece .closeBrace trivial h
  ends := fun _ => endsNumeral_cons (by decide)

variable {opening closing : String} {first last : Piece} {entries : List String}
  {pss : List (List Piece)}

theorem Brackets.writes (hb : Brackets opening closing first last) (h : Writes text ps) :
    Writes (opening ++ text ++ closing) (first :: (ps ++ [last])) := by
  intro cs qs _ hqs
  rw [String.toList_append, String.toList_append, List.cons_append, List.append_assoc,
    List.append_assoc, List.append_assoc]
  exact hb.opens (h (hb.ends cs) (hb.closes hqs))

theorem blank_of_mem_indent (depth : Nat) : ∀ c ∈ (Value.indent depth).toList, c ∈ blanks := by
  intro c hc
  rw [Value.indent, String.toList_ofList] at hc
  rw [List.eq_of_mem_replicate hc]
  decide

theorem Writes.indented (h : Writes text ps) (depth : Nat) :
    Writes (Value.indent depth ++ text) ps := by
  intro cs qs hcs hqs
  rw [String.toList_append, List.append_assoc]
  exact Spaced.blanks (blank_of_mem_indent depth) (h hcs hqs)

/-- The line before the first entry and the one of the closing bracket add only blanks. -/
theorem Writes.onLines (h : Writes text ps) (depth : Nat) :
    Writes ("\n" ++ text ++ ("\n" ++ Value.indent depth)) ps := by
  intro cs qs hcs hqs
  simp only [String.toList_append, List.append_assoc]
  change Spaced ('\n' :: (text.toList ++ ('\n' :: ((Value.indent depth).toList ++ cs)))) _
  exact .blank (by decide) (h (endsNumeral_cons (by decide))
    (.blank (by decide) (Spaced.blanks (blank_of_mem_indent depth) hqs)))

/-- Entries on lines of their own between brackets write the entries with commas between them. -/
theorem Brackets.writes_block (hb : Brackets opening closing first last)
    (h : List.Forall₂ Writes entries pss) (depth : Nat) :
    Writes (Value.block opening closing depth entries)
      (first :: ([.comma].intercalate pss ++ [last])) := by
  have hlines : List.Forall₂ Writes (entries.map fun e => Value.indent (depth + 1) ++ e) pss :=
    List.forall₂_map_left_iff.mpr (h.imp fun _ _ hentry => hentry.indented (depth + 1))
  have hbody :=
    writes_intercalate ",\n" ['\n'] rfl (List.forall_mem_singleton.mpr (by decide)) hlines
  cases h with
  | nil =>
    have hempty := hb.writes hbody
    rwa [List.map_nil, String.intercalate_nil, String.append_empty] at hempty
  | @cons e ps entries pss hentry hrest =>
    have hblock := hb.writes (hbody.onLines depth)
    have heq : Value.block opening closing depth (e :: entries) = opening ++
        ("\n" ++ ",\n".intercalate ((e :: entries).map fun e => Value.indent (depth + 1) ++ e) ++
          ("\n" ++ Value.indent depth)) ++ closing := by
      simp only [Value.block, String.append_assoc]
    rwa [heq]

/-! ## Whole values -/

theorem Value.compactItems_eq (items : List Value) :
    compactItems items = items.map compact := by
  induction items with
  | nil => rfl
  | cons v items ih => rw [compactItems, ih, List.map_cons]

theorem Value.compactMembers_eq (members : Members) :
    compactMembers members = members.map fun m => quote m.1 ++ ":" ++ m.2.compact := by
  induction members with
  | nil => rfl
  | cons m members ih => rw [compactMembers, ih, List.map_cons]

theorem Value.prettyItems_eq (depth : Nat) (items : List Value) :
    prettyItems depth items = items.map (prettyAt depth) := by
  induction items with
  | nil => rfl
  | cons v items ih => rw [prettyItems, ih, List.map_cons]

theorem Value.prettyMembers_eq (depth : Nat) (members : Members) :
    prettyMembers depth members = members.map fun m => quote m.1 ++ ": " ++ m.2.prettyAt depth := by
  induction members with
  | nil => rfl
  | cons m members ih => rw [prettyMembers, ih, List.map_cons]

theorem forall₂_items {write : Value → String} {items : List Value}
    (h : ∀ v ∈ items, Writes (write v) v.pieces) :
    List.Forall₂ Writes (items.map write) (Value.itemPieces items) := by
  induction items with
  | nil => exact .nil
  | cons v items ih =>
    obtain ⟨hv, hitems⟩ := List.forall_mem_cons.mp h
    exact .cons hv (ih hitems)

theorem forall₂_members {write : Value → String} {members : Members} {colon : String}
    (front : List Char) (hcolon : colon.toList = ':' :: front) (hfront : ∀ c ∈ front, c ∈ blanks)
    (h : ∀ m ∈ members, Writes (write m.2) m.2.pieces) :
    List.Forall₂ Writes (members.map fun m => quote m.1 ++ colon ++ write m.2)
      (Value.memberPieces members) := by
  induction members with
  | nil => exact .nil
  | cons m members ih =>
    obtain ⟨hm, hmembers⟩ := List.forall_mem_cons.mp h
    exact .cons (writes_member front hcolon hfront m.1 hm) (ih hmembers)

theorem Value.Whole.writes_compact (h : v.Whole) : Writes v.compact v.pieces := by
  induction h with
  | null => exact writes_piece .null fun _ _ => trivial
  | bool b => exact writes_bool b
  | number hlow hhigh => exact writes_number hlow hhigh
  | text s => exact writes_quote s
  | array _ ih =>
    rw [Value.compact, Value.compactItems_eq]
    exact brackets.writes (writes_intercalate "," [] rfl nofun (forall₂_items ih))
  | object _ ih =>
    rw [Value.compact, Value.compactMembers_eq]
    exact braces.writes
      (writes_intercalate "," [] rfl nofun (forall₂_members [] rfl nofun ih))

theorem Value.Whole.writes_prettyAt (h : v.Whole) (depth : Nat) :
    Writes (v.prettyAt depth) v.pieces := by
  induction h generalizing depth with
  | null => exact writes_piece .null fun _ _ => trivial
  | bool b => exact writes_bool b
  | number hlow hhigh => exact writes_number hlow hhigh
  | text s => exact writes_quote s
  | array _ ih =>
    rw [Value.prettyAt, Value.prettyItems_eq]
    exact brackets.writes_block (forall₂_items fun v hv => ih v hv (depth + 1)) depth
  | object _ ih =>
    have hspace : ∀ c ∈ [' '], c ∈ blanks := List.forall_mem_singleton.mpr (by decide)
    rw [Value.prettyAt, Value.prettyMembers_eq]
    exact braces.writes_block
      (forall₂_members [' '] rfl hspace fun m hm => ih m hm (depth + 1)) depth

theorem Writes.writtenAs (h : Writes text v.pieces) : v.WrittenAs text := by
  have hspaced := h endsNumeral_nil .nil
  rwa [List.append_nil, List.append_nil] at hspaced

/-- **The text on one line writes the value.** -/
theorem Value.Whole.writtenAs_compact (h : v.Whole) : v.WrittenAs v.compact :=
  h.writes_compact.writtenAs

/-- **The text with each entry on a line of its own writes the value.** -/
theorem Value.Whole.writtenAs_pretty (h : v.Whole) : v.WrittenAs v.pretty :=
  (h.writes_prettyAt 0).writtenAs

end Irrigation.Json
