import Irrigation.Json.Number

/-!
# JSON values

A value is a tree; the members of an object are a list of names and values. `Members.insert`
keeps such a list sorted by name and the names distinct, so that a document has one order.
`Value.compact` and `Value.pretty` write a value.
-/

namespace Irrigation.Json

/-- A JSON value. -/
inductive Value
  | null
  | bool (b : Bool)
  | number (n : Number)
  | text (s : String)
  | array (items : List Value)
  | object (members : List (String × Value))
  deriving Repr

/-- The members of an object. -/
abbrev Members := List (String × Value)

namespace Members

/-- The value of a name. -/
def find? : Members → String → Option Value
  | [], _ => none
  | (k, v) :: rest, name => if k = name then some v else find? rest name

/-- Sets the value of a name: in place if the name is there, else before the first greater one. -/
def insert : Members → String → Value → Members
  | [], name, value => [(name, value)]
  | (k, v) :: rest, name, value =>
    if k = name then (name, value) :: rest
    else if name < k then (name, value) :: (k, v) :: rest
    else (k, v) :: insert rest name value

/-- Removes a name. -/
def erase (ms : Members) (name : String) : Members := ms.filter fun m => m.1 != name

/-- Whether a name is there. -/
def contains (ms : Members) (name : String) : Bool := (ms.find? name).isSome

/-- Members in the order of their names; of two with one name the later is kept. -/
def ofList (ms : List (String × Value)) : Members :=
  ms.foldl (fun sorted m => insert sorted m.1 m.2) []

theorem find?_insert (ms : Members) (name : String) (value : Value) (other : String) :
    (ms.insert name value).find? other = if name = other then some value else ms.find? other := by
  induction ms with
  | nil => simp [insert, find?]
  | cons m rest ih =>
    obtain ⟨k, v⟩ := m
    simp only [insert]
    split
    · next h => subst h; simp only [find?]; split <;> rfl
    · next h =>
      split
      · simp only [find?]
      · simp only [find?, ih]
        split
        · next hk => subst hk; simp [Ne.symm h]
        · rfl

theorem find?_erase (ms : Members) (name other : String) :
    (ms.erase name).find? other = if name = other then none else ms.find? other := by
  induction ms with
  | nil => simp [erase, find?]
  | cons m rest ih =>
    obtain ⟨k, v⟩ := m
    simp only [erase, List.filter_cons] at ih ⊢
    by_cases h : k = name
    · subst h
      simp only [bne_self_eq_false, Bool.false_eq_true, if_false, ih, find?]
      split <;> rfl
    · simp only [bne_iff_ne, ne_eq, h, not_false_eq_true, if_true, find?, ih]
      split
      · next hk => subst hk; simp [Ne.symm h]
      · rfl

end Members

namespace Value

/-- What kind of value it is, with its article. -/
def kind : Value → String
  | .null => "null"
  | .bool _ => "a boolean"
  | .number _ => "a number"
  | .text _ => "a string"
  | .array _ => "an array"
  | .object _ => "an object"

/-- The text of a text value. -/
def text? : Value → Option String
  | .text s => some s
  | _ => none

/-- The truth value of a boolean. -/
def bool? : Value → Option Bool
  | .bool b => some b
  | _ => none

/-- The number of an unsigned integer of 64 bits. -/
def natural? : Value → Option UInt64
  | .number n => n.natural?
  | _ => none

/-- The members of an object. -/
def members? : Value → Option Members
  | .object ms => some ms
  | _ => none

/-- An unsigned integer. -/
def ofNatural (n : UInt64) : Value := .number (.ofNatural n)

mutual

/-- The value with the members of every object in the order of their names. -/
def sorted : Value → Value
  | .array items => .array (sortedItems items)
  | .object members => .object (Members.ofList (sortedMembers members))
  | v => v

/-- Sorts each of some values. -/
def sortedItems : List Value → List Value
  | [] => []
  | v :: rest => v.sorted :: sortedItems rest

/-- Sorts the value of each member. -/
def sortedMembers : List (String × Value) → List (String × Value)
  | [] => []
  | (k, v) :: rest => (k, v.sorted) :: sortedMembers rest

end

end Value

/-! ## Writing -/

/-- A hexadecimal digit. -/
def hexDigit (n : Nat) : Char := (Nat.toDigits 16 n).headD '0'

/-- A character of a text: quotes, backslashes and control characters are escaped, all else is
written as it is. -/
def escape (c : Char) : List Char :=
  match c with
  | '"' => ['\\', '"']
  | '\\' => ['\\', '\\']
  | '\n' => ['\\', 'n']
  | '\r' => ['\\', 'r']
  | '\t' => ['\\', 't']
  | '\x08' => ['\\', 'b']
  | '\x0c' => ['\\', 'f']
  | c =>
    if c.toNat < 32 then ['\\', 'u', '0', '0', hexDigit (c.toNat / 16), hexDigit (c.toNat % 16)]
    else [c]

/-- A text between quotes. -/
def quote (s : String) : String := "\"" ++ String.ofList (s.toList.flatMap escape) ++ "\""

namespace Value

mutual

/-- A value on one line, without blanks. -/
def compact : Value → String
  | .null => "null"
  | .bool b => if b then "true" else "false"
  | .number n => n.text
  | .text s => quote s
  | .array items => "[" ++ ",".intercalate (compactItems items) ++ "]"
  | .object members => "\x7b" ++ ",".intercalate (compactMembers members) ++ "\x7d"

/-- The items of an array. -/
def compactItems : List Value → List String
  | [] => []
  | v :: rest => v.compact :: compactItems rest

/-- The members of an object. -/
def compactMembers : List (String × Value) → List String
  | [] => []
  | (k, v) :: rest => (quote k ++ ":" ++ v.compact) :: compactMembers rest

end

/-- The blanks at the beginning of a line. -/
def indent (depth : Nat) : String := String.ofList (List.replicate (2 * depth) ' ')

/-- Entries between brackets, each on a line of its own. -/
def block (opening closing : String) (depth : Nat) : List String → String
  | [] => opening ++ closing
  | entries =>
    let lines := entries.map fun e => indent (depth + 1) ++ e
    opening ++ "\n" ++ ",\n".intercalate lines ++ "\n" ++ indent depth ++ closing

mutual

/-- A value with each entry on a line of its own, at a depth of nesting. -/
def prettyAt (depth : Nat) : Value → String
  | .array items => block "[" "]" depth (prettyItems (depth + 1) items)
  | .object members => block "\x7b" "\x7d" depth (prettyMembers (depth + 1) members)
  | v => v.compact

/-- The items of an array. -/
def prettyItems (depth : Nat) : List Value → List String
  | [] => []
  | v :: rest => v.prettyAt depth :: prettyItems depth rest

/-- The members of an object. -/
def prettyMembers (depth : Nat) : List (String × Value) → List String
  | [] => []
  | (k, v) :: rest => (quote k ++ ": " ++ v.prettyAt depth) :: prettyMembers depth rest

end

/-- The text of a document. -/
def pretty (v : Value) : String := v.prettyAt 0

end Value

end Irrigation.Json
