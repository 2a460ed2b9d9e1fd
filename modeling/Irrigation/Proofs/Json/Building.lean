import Irrigation.Proofs.Json.Cutting
import Irrigation.Proofs.Json.Showing

/-!
# Texts that write a value

A value is written as its pieces, one after the other (`Value.pieces`), with any blanks between
them. From the pieces of a value a tree that shows it is built, wherever the value stands
(`Tree.builds`); so a text that writes a value holds it (`Value.holds_of_writtenAs`).
-/

namespace Irrigation.Json

/-- Induction over a value: what holds of the items of an array and of the values of an object's
members holds of the array and of the object. -/
@[elab_as_elim]
theorem Value.induction {P : Value → Prop} (null : P .null) (bool : ∀ b, P (.bool b))
    (number : ∀ n, P (.number n)) (text : ∀ s, P (.text s))
    (array : ∀ items, (∀ v ∈ items, P v) → P (.array items))
    (object : ∀ members : Members, (∀ m ∈ members, P m.2) → P (.object members)) (v : Value) :
    P v := by
  refine Value.rec (motive_1 := P) (motive_2 := fun items => ∀ v ∈ items, P v)
    (motive_3 := fun members => ∀ m ∈ members, P m.2) (motive_4 := fun m => P m.2) null bool number
    text array object nofun ?_ nofun ?_ ?_ v
  · exact fun v items hv hitems => List.forall_mem_cons.mpr ⟨hv, hitems⟩
  · exact fun m members hm hmembers => List.forall_mem_cons.mpr ⟨hm, hmembers⟩
  · exact fun k v hv => hv

namespace Value

mutual

/-- The pieces of a value. -/
def pieces : Value → List Piece
  | .null => [.word .null]
  | .bool b => [.word (if b then .true else .false)]
  | .number n => [.number n]
  | .text s => [.quoted s]
  | .array items => .openBracket :: ([.comma].intercalate (itemPieces items) ++ [.closeBracket])
  | .object members => .openBrace :: ([.comma].intercalate (memberPieces members) ++ [.closeBrace])

/-- The pieces of items. -/
def itemPieces : List Value → List (List Piece)
  | [] => []
  | v :: rest => v.pieces :: itemPieces rest

/-- The pieces of members. -/
def memberPieces : List (String × Value) → List (List Piece)
  | [] => []
  | (k, v) :: rest => (.quoted k :: .colon :: v.pieces) :: memberPieces rest

end

/-- A text writes a value: it consists of its pieces, with any blanks between them. -/
def WrittenAs (v : Value) (text : String) : Prop := Spaced text.toList v.pieces

end Value

/-! ## Building the tree -/

namespace Tree

/-- A value may begin here. -/
def Mode.StartsValue : Mode → Prop
  | .value | .firstItem | .item => True
  | _ => False

variable {stop : Spot} {mode : Mode} {stack below : List Frame} {l : Lexeme} {ls rest : List Lexeme}
  {t : Tree} {p : Piece} {ps : List Piece} {v : Value} {vs : List Value} {ms : Members}

/-- The document that comes of a complete value and what is behind it. -/
def proceed (stop : Spot) (t : Tree) (stack : List Frame) (rest : List Lexeme) : Document :=
  build stop (deliver t stack).1 (deliver t stack).2 rest

/-! ### Single lexemes -/

theorem build_scalar (hmode : mode.StartsValue) (hl : scalar? l = some (t, none)) :
    build stop mode stack (l :: rest) = proceed stop t stack rest := by
  obtain ⟨token, start, last⟩ := l
  cases token with
  | word w =>
    cases w with
    | error f => cases hl
    | ok w => cases w <;> cases hl <;> cases mode <;> first | exact hmode.elim | rfl
  | number strict loose =>
    cases loose <;> cases hl
    cases mode <;> first | exact hmode.elim | rfl
  | quoted strict loose =>
    cases loose <;> cases hl
    cases mode <;> first | exact hmode.elim | rfl
  | _ => cases hl

theorem build_openBracket (hmode : mode.StartsValue) (hl : l.token = .openBracket) :
    build stop mode stack (l :: rest) =
      build stop .firstItem (.array [] l.start :: stack) rest := by
  cases l
  subst hl
  cases mode <;> first | exact hmode.elim | rfl

theorem build_openBrace (hmode : mode.StartsValue) (hl : l.token = .openBrace) :
    build stop mode stack (l :: rest) =
      build stop .firstName (.object [] l.start none :: stack) rest := by
  cases l
  subst hl
  cases mode <;> first | exact hmode.elim | rfl

theorem build_closeBracket {items : List Tree} {start : Spot}
    (hmode : mode = .firstItem ∨ mode = .comma) (hl : l.token = .closeBracket) :
    build stop mode (.array items start :: below) (l :: rest) =
      proceed stop (.array items.reverse start (.closed l.stop)) below rest := by
  cases l
  subst hl
  rcases hmode with rfl | rfl <;> rfl

theorem build_closeBrace {members : List (Key × Tree)} {start : Spot} {pending : Option Key}
    (hmode : mode = .firstName ∨ mode = .comma) (hl : l.token = .closeBrace) :
    build stop mode (.object members start pending :: below) (l :: rest) =
      proceed stop (.object members.reverse start (.closed l.stop)) below rest := by
  cases l
  subst hl
  rcases hmode with rfl | rfl <;> rfl

theorem build_comma_array {items : List Tree} {start : Spot} (hl : l.token = .comma) :
    build stop .comma (.array items start :: below) (l :: rest) =
      build stop .item (.array items start :: below) rest := by
  cases l
  subst hl
  rfl

theorem build_comma_object {members : List (Key × Tree)} {start : Spot} {pending : Option Key}
    (hl : l.token = .comma) :
    build stop .comma (.object members start pending :: below) (l :: rest) =
      build stop .name (.object members start pending :: below) rest := by
  cases l
  subst hl
  rfl

theorem build_name {members : List (Key × Tree)} {start : Spot} {pending : Option Key} {k : String}
    (hmode : mode = .firstName ∨ mode = .name) (hl : l.token = .quoted (.ok k) (.ok ())) :
    build stop mode (.object members start pending :: below) (l :: rest) =
      build stop .colon
        (.object members start (some (Key.of (.ok k) l rest stop)) :: below) rest := by
  cases l
  subst hl
  rcases hmode with rfl | rfl <;> rfl

theorem build_colon (hl : l.token = .colon) :
    build stop .colon stack (l :: rest) = build stop .value stack rest := by
  cases l
  subst hl
  rfl

/-! ### Whole values -/

/-- Lexemes are those of pieces. -/
def Lexes (ls : List Lexeme) (ps : List Piece) : Prop :=
  ls.map Lexeme.token = ps.map Piece.token

theorem Lexes.uncons (h : Lexes ls (p :: ps)) :
    ∃ l rest, ls = l :: rest ∧ l.token = p.token ∧ Lexes rest ps := by
  obtain ⟨l, rest, rfl, hl, hrest⟩ := List.map_eq_cons_iff.mp h
  exact ⟨l, rest, rfl, hl, hrest⟩

/-- From the lexemes of a value a tree that shows it is built, wherever the value stands. -/
def Builds (stop : Spot) (v : Value) : Prop :=
  ∀ (mode : Mode) (stack : List Frame) ⦃ls : List Lexeme⦄ ⦃ps : List Piece⦄, mode.StartsValue →
    Lexes ls (v.pieces ++ ps) → ∃ t rest, t.Shows v ∧ Lexes rest ps ∧
      build stop mode stack ls = proceed stop t stack rest

/-- The items of an array are built up to the closing bracket. -/
theorem build_items (hvs : ∀ v' ∈ v :: vs, Builds stop v') (mode : Mode)
    (hmode : mode.StartsValue) (items : List Tree) (start : Spot) (below : List Frame)
    (hls : Lexes ls ([.comma].intercalate (Value.itemPieces (v :: vs)) ++ .closeBracket :: ps)) :
    ∃ ts close rest, ShowItems ts (v :: vs) ∧ Lexes rest ps ∧
      build stop mode (.array items start :: below) ls =
        proceed stop (.array (items.reverse ++ ts) start (.closed close)) below rest := by
  induction vs generalizing v mode items ls with
  | nil =>
    rw [Value.itemPieces, Value.itemPieces, List.intercalate_singleton] at hls
    obtain ⟨t, ls₁, ht, hls₁, hbuild⟩ := hvs v List.mem_cons_self mode _ hmode hls
    obtain ⟨l, rest, rfl, hl, hrest⟩ := hls₁.uncons
    refine ⟨[t], l.stop, rest, .cons ht .nil, hrest, hbuild.trans ?_⟩
    exact (build_closeBracket (.inr rfl) hl).trans (by rw [List.reverse_cons])
  | cons w vs ih =>
    rw [Value.itemPieces, Value.itemPieces, List.intercalate_cons_cons, List.append_assoc,
      List.append_assoc] at hls
    obtain ⟨t, ls₁, ht, hls₁, hbuild⟩ := hvs v List.mem_cons_self mode _ hmode hls
    obtain ⟨l, ls₂, rfl, hl, hls₂⟩ := hls₁.uncons
    obtain ⟨ts, close, rest, hts, hrest, hbuild₂⟩ :=
      ih (v := w) (fun v' hv' => hvs v' (List.mem_cons_of_mem _ hv')) .item trivial
        (t :: items) hls₂
    refine ⟨t :: ts, close, rest, .cons ht hts, hrest, hbuild.trans ?_⟩
    refine (build_comma_array hl).trans (hbuild₂.trans ?_)
    rw [List.reverse_cons, List.append_assoc]
    rfl

/-- A member of an object is built: its name, the colon and its value. -/
theorem build_member {k : String} (hv : Builds stop v) (hmode : mode = .firstName ∨ mode = .name)
    (members : List (Key × Tree)) (start : Spot)
    (hls : Lexes ls (.quoted k :: .colon :: (v.pieces ++ ps))) :
    ∃ t nameStop next rest, t.Shows v ∧ Lexes rest ps ∧
      build stop mode (.object members start none :: below) ls =
        build stop .comma (.object ((⟨.ok k, nameStop, next⟩, t) :: members) start none :: below)
          rest := by
  obtain ⟨l, ls₁, rfl, hname, hls₁⟩ := hls.uncons
  obtain ⟨l', ls₂, rfl, hcolon, hls₂⟩ := hls₁.uncons
  obtain ⟨t, rest, ht, hrest, hbuild⟩ := hv .value _ trivial hls₂
  exact ⟨t, _, _, rest, ht, hrest,
    (build_name hmode hname).trans ((build_colon hcolon).trans hbuild)⟩

/-- The members of an object are built up to the closing brace. -/
theorem build_members {m : String × Value} (hms : ∀ m' ∈ m :: ms, Builds stop m'.2)
    (hmode : mode = .firstName ∨ mode = .name) (members : List (Key × Tree)) (start : Spot)
    (below : List Frame)
    (hls : Lexes ls ([.comma].intercalate (Value.memberPieces (m :: ms)) ++ .closeBrace :: ps)) :
    ∃ ts close rest, ShowMembers ts (m :: ms) ∧ Lexes rest ps ∧
      build stop mode (.object members start none :: below) ls =
        proceed stop (.object (members.reverse ++ ts) start (.closed close)) below rest := by
  induction ms generalizing m mode members ls with
  | nil =>
    rw [Value.memberPieces, Value.memberPieces, List.intercalate_singleton] at hls
    obtain ⟨t, nameStop, next, ls₁, ht, hls₁, hbuild⟩ :=
      build_member (hms m List.mem_cons_self) hmode members start hls
    obtain ⟨l, rest, rfl, hl, hrest⟩ := hls₁.uncons
    refine ⟨[_], l.stop, rest, .cons nameStop next ht .nil, hrest, hbuild.trans ?_⟩
    exact (build_closeBrace (.inr rfl) hl).trans (by rw [List.reverse_cons])
  | cons m' ms ih =>
    rw [Value.memberPieces, Value.memberPieces, List.intercalate_cons_cons, List.append_assoc,
      List.append_assoc] at hls
    obtain ⟨t, nameStop, next, ls₁, ht, hls₁, hbuild⟩ :=
      build_member (hms m List.mem_cons_self) hmode members start hls
    obtain ⟨l, ls₂, rfl, hl, hls₂⟩ := hls₁.uncons
    obtain ⟨ts, close, rest, hts, hrest, hbuild₂⟩ :=
      ih (m := m') (fun m'' hm'' => hms m'' (List.mem_cons_of_mem _ hm'')) (.inr rfl)
        ((⟨.ok m.1, nameStop, next⟩, t) :: members) hls₂
    refine ⟨_ :: ts, close, rest, .cons nameStop next ht hts, hrest, hbuild.trans ?_⟩
    refine (build_comma_object hl).trans (hbuild₂.trans ?_)
    rw [List.reverse_cons, List.append_assoc]
    rfl

/-- **Every value is built from its lexemes.** -/
theorem builds (stop : Spot) (v : Value) : Builds stop v := by
  induction v using Value.induction with
  | null =>
    intro mode stack ls ps hmode hls
    obtain ⟨l, rest, rfl, hl, hrest⟩ := hls.uncons
    exact ⟨_, rest, .null l.stop, hrest, build_scalar hmode (by rw [scalar?, hl]; rfl)⟩
  | bool b =>
    intro mode stack ls ps hmode hls
    obtain ⟨l, rest, rfl, hl, hrest⟩ := hls.uncons
    refine ⟨_, rest, .bool b l.stop, hrest, build_scalar hmode ?_⟩
    cases b <;> (rw [scalar?, hl]; rfl)
  | number n =>
    intro mode stack ls ps hmode hls
    obtain ⟨l, rest, rfl, hl, hrest⟩ := hls.uncons
    exact ⟨_, rest, .number n l.stop, hrest, build_scalar hmode (by rw [scalar?, hl]; rfl)⟩
  | text s =>
    intro mode stack ls ps hmode hls
    obtain ⟨l, rest, rfl, hl, hrest⟩ := hls.uncons
    exact ⟨_, rest, .text s l.stop, hrest, build_scalar hmode (by rw [scalar?, hl]; rfl)⟩
  | array items ih =>
    intro mode stack ls ps hmode hls
    rw [Value.pieces, List.cons_append, List.append_assoc] at hls
    obtain ⟨l, ls₁, rfl, hl, hls₁⟩ := hls.uncons
    cases items with
    | nil =>
      obtain ⟨l', rest, rfl, hl', hrest⟩ := hls₁.uncons
      exact ⟨_, rest, .array _ _ .nil, hrest,
        (build_openBracket hmode hl).trans (build_closeBracket (.inl rfl) hl')⟩
    | cons v vs =>
      obtain ⟨ts, close, rest, hts, hrest, hbuild⟩ :=
        build_items ih .firstItem trivial [] l.start stack hls₁
      exact ⟨_, rest, .array _ _ hts, hrest, (build_openBracket hmode hl).trans hbuild⟩
  | object members ih =>
    intro mode stack ls ps hmode hls
    rw [Value.pieces, List.cons_append, List.append_assoc] at hls
    obtain ⟨l, ls₁, rfl, hl, hls₁⟩ := hls.uncons
    cases members with
    | nil =>
      obtain ⟨l', rest, rfl, hl', hrest⟩ := hls₁.uncons
      exact ⟨_, rest, .object _ _ .nil, hrest,
        (build_openBrace hmode hl).trans (build_closeBrace (.inl rfl) hl')⟩
    | cons m ms =>
      obtain ⟨ts, close, rest, hts, hrest, hbuild⟩ :=
        build_members ih (.inl rfl) [] l.start stack hls₁
      exact ⟨_, rest, .object _ _ hts, hrest, (build_openBrace hmode hl).trans hbuild⟩

end Tree

/-- **A text that writes a value holds it.** -/
theorem Value.holds_of_writtenAs {v : Value} {text : String} (h : v.WrittenAs text) :
    Holds text v := by
  have hls : Tree.Lexes (lexemes text).all (v.pieces ++ []) := by
    rw [List.append_nil]
    exact tokens_of_spaced h
  obtain ⟨t, rest, ht, hrest, hbuild⟩ :=
    Tree.builds (lexemes text).stop v .value [] trivial hls
  obtain rfl := List.map_eq_nil_iff.mp hrest
  exact ⟨t, hbuild, ht⟩

end Irrigation.Json
