import Irrigation.Json.Lexeme
import Irrigation.Json.Value
import Irrigation.Text.Inspect

/-!
# JSON texts as trees

A text is read into a tree whatever it holds: a fault becomes a part of the tree, at the place
where a reader that goes through the tree from left to right would meet it. So one reading
serves readers that want a typed record and report a wrong type before a fault further on,
readers that skip what they do not know, and `Document.value`, which wants all of it.

The tree is built by a machine with an explicit stack of open arrays and objects, so that
nesting costs no recursion.
-/

namespace Irrigation.Json

/-- What an error message says was found, and where. -/
structure Found where
  what : String
  spot : Spot
  deriving DecidableEq, Repr

/-- The name of a member: where it ends, and how far an object that has no use for the name is
read, which is up to the next lexeme, or to the end of the object if the name is the last thing in
it. -/
structure Key where
  name : Except Fault String
  stop : Spot
  next : Spot

/-- How an array or object ends. -/
inductive Closing
  /-- With its bracket. -/
  | closed (stop : Spot)
  /-- With a fault behind the last entry. -/
  | broken (fault : Fault)
  /-- With a fault behind a comma. -/
  | dangling (fault : Fault)

/-- The fault that ends an array or object. -/
def Closing.fault? : Closing → Option Fault
  | .closed _ => none
  | .broken f => some f
  | .dangling f => some f

/-- A text as far as it can be read. -/
inductive Tree
  | null (stop : Spot)
  | bool (b : Bool) (stop : Spot)
  | number (n : Except Fault Number) (stop : Spot)
  | text (s : Except Fault String) (stop : Spot)
  | array (items : List Tree) (start : Spot) (closing : Closing)
  | object (members : List (Key × Tree)) (start : Spot) (closing : Closing)
  /-- A word that is not finished as it began. -/
  | brokenWord (fault : Fault)
  /-- No value at all. -/
  | missing (fault : Fault)

/-- A read text: its value, and the fault behind it, if there is one. -/
structure Document where
  root : Tree
  tail : Option Fault

namespace Tree

/-- What a tree looks like to a reader that wanted something else. -/
def found : Tree → Except Fault Found
  | .null stop => .ok ⟨"null", stop⟩
  | .bool b stop => .ok ⟨s!"boolean `{b}`", stop⟩
  | .number n stop =>
    n.map fun n =>
      match n with
      | .whole i => ⟨s!"integer `{i}`", stop⟩
      | .real x => ⟨s!"floating point `{x.text}`", stop⟩
  | .text s stop => s.map fun s => ⟨"string " ++ Text.inspect s, stop⟩
  | .array _ start _ => .ok ⟨"sequence", start⟩
  | .object _ start _ => .ok ⟨"map", start⟩
  | .brokenWord f => .error f
  | .missing f => .error f

/-- The tree of a scalar lexeme, with the fault that ends reading there; `none` for a lexeme that
is no scalar. -/
def scalar? (l : Lexeme) : Option (Tree × Option Fault) :=
  let fault : Except Fault Unit → Option Fault
    | .ok _ => none
    | .error f => some f
  match l.token with
  | .word (.ok .null) => some (.null l.stop, none)
  | .word (.ok .true) => some (.bool true l.stop, none)
  | .word (.ok .false) => some (.bool false l.stop, none)
  | .word (.error f) => some (.brokenWord f, some f)
  | .number strict loose => some (.number strict l.stop, fault loose)
  | .quoted strict loose => some (.text strict l.stop, fault loose)
  | _ => none

/-! ## Building -/

/-- An array or object that is still open; its entries are in reverse. -/
inductive Frame
  | array (items : List Tree) (start : Spot)
  | object (members : List (Key × Tree)) (start : Spot) (pending : Option Key)

/-- Adds a value to an open array or object. -/
def Frame.give (t : Tree) : Frame → Frame
  | .array items start => .array (t :: items) start
  | .object members start (some key) => .object ((key, t) :: members) start none
  | .object members start none => .object members start none

/-- Ends an array or object. -/
def Frame.finish (closing : Closing) : Frame → Tree
  | .array items start => .array items.reverse start closing
  | .object members start _ => .object members.reverse start closing

/-- Ends all that is open, behind a value that ends in a fault. -/
def abandon (fault : Fault) : Tree → List Frame → Document
  | t, [] => ⟨t, none⟩
  | t, frame :: rest => abandon fault ((frame.give t).finish (.broken fault)) rest

/-- Ends all that is open, the innermost in a given way. -/
def breakOff (fault : Fault) (closing : Closing) : List Frame → Document
  | [] => ⟨.missing fault, none⟩
  | frame :: rest => abandon fault (frame.finish closing) rest

/-- What is read next. -/
inductive Mode
  /-- A value. -/
  | value
  /-- The first item of an array, or its end. -/
  | firstItem
  /-- An item of an array behind a comma. -/
  | item
  /-- The first name of an object, or its end. -/
  | firstName
  /-- A name behind a comma. -/
  | name
  /-- The colon behind a name. -/
  | colon
  /-- A comma, or the end of what is open. -/
  | comma
  /-- The end of the text. -/
  | finish (root : Tree)

/-- A name with the lexemes behind it; `stop` is the end of the text. -/
def Key.of (name : Except Fault String) (l : Lexeme) (rest : List Lexeme) (stop : Spot) : Key :=
  let next :=
    match rest with
    | [] => stop
    | l :: _ =>
      match l.token with
      | .closeBrace => l.stop
      | _ => l.start
  ⟨name, l.stop, next⟩

/-- Where to go on behind a complete value. -/
def deliver (t : Tree) : List Frame → Mode × List Frame
  | [] => (.finish t, [])
  | frame :: rest => (.comma, frame.give t :: rest)

/-- The document of lexemes, given what is open; `stop` is the end of the text. -/
def build (stop : Spot) : Mode → List Frame → List Lexeme → Document
  | .finish root, _, [] => ⟨root, none⟩
  | .finish root, _, _ :: _ => ⟨root, some .malformed⟩
  | .value, stack, [] => abandon .incomplete (.missing .incomplete) stack
  | .colon, stack, [] => abandon .incomplete (.missing .incomplete) stack
  | .item, stack, [] => breakOff .incomplete (.dangling .incomplete) stack
  | .name, stack, [] => breakOff .incomplete (.dangling .incomplete) stack
  | .firstItem, stack, [] => breakOff .incomplete (.broken .incomplete) stack
  | .firstName, stack, [] => breakOff .incomplete (.broken .incomplete) stack
  | .comma, stack, [] => breakOff .incomplete (.broken .incomplete) stack
  | .colon, stack, l :: rest =>
    match l.token with
    | .colon => build stop .value stack rest
    | _ => abandon .malformed (.missing .malformed) stack
  | .comma, stack, l :: rest =>
    match l.token, stack with
    | .comma, .array .. :: _ => build stop .item stack rest
    | .comma, .object .. :: _ => build stop .name stack rest
    | .closeBracket, .array items start :: below =>
      let (mode, stack) := deliver (.array items.reverse start (.closed l.stop)) below
      build stop mode stack rest
    | .closeBrace, .object members start _ :: below =>
      let (mode, stack) := deliver (.object members.reverse start (.closed l.stop)) below
      build stop mode stack rest
    | _, _ => breakOff .malformed (.broken .malformed) stack
  | .firstName, stack, l :: rest =>
    match l.token, stack with
    | .closeBrace, .object members start _ :: below =>
      let (mode, stack) := deliver (.object members.reverse start (.closed l.stop)) below
      build stop mode stack rest
    | .quoted strict loose, .object members start _ :: below =>
      let stack := .object members start (some (Key.of strict l rest stop)) :: below
      match loose with
      | .ok _ => build stop .colon stack rest
      | .error f => abandon f (.missing f) stack
    | _, _ => breakOff .malformed (.broken .malformed) stack
  | .name, stack, l :: rest =>
    match l.token, stack with
    | .quoted strict loose, .object members start _ :: below =>
      let stack := .object members start (some (Key.of strict l rest stop)) :: below
      match loose with
      | .ok _ => build stop .colon stack rest
      | .error f => abandon f (.missing f) stack
    | _, _ => breakOff .malformed (.dangling .malformed) stack
  | mode, stack, l :: rest =>
    match l.token, mode, stack with
    | .closeBracket, .firstItem, .array items start :: below =>
      let (mode, stack) := deliver (.array items.reverse start (.closed l.stop)) below
      build stop mode stack rest
    | .closeBracket, .item, _ => breakOff .malformed (.dangling .malformed) stack
    | .openBracket, _, _ => build stop .firstItem (.array [] l.start :: stack) rest
    | .openBrace, _, _ => build stop .firstName (.object [] l.start none :: stack) rest
    | _, _, _ =>
      match scalar? l with
      | some (t, none) =>
        let (mode, stack) := deliver t stack
        build stop mode stack rest
      | some (t, some f) => abandon f t stack
      | none => abandon .malformed (.missing .malformed) stack

end Tree

/-- Reads a text. -/
def Document.read (text : String) : Document :=
  let ls := lexemes text
  Tree.build ls.stop .value [] ls.all

/-! ## The whole value -/

namespace Tree

/-- The deepest nesting that a value may have. -/
def maxDepth : Nat := 127

mutual

/-- The value of a tree at a depth of nesting, or its first fault. Of members with one name the
last is kept. -/
def value (depth : Nat) : Tree → Except Fault Value
  | .null _ => .ok .null
  | .bool b _ => .ok (.bool b)
  | .number n _ => n.map .number
  | .text s _ => s.map .text
  | .array items _ closing =>
    if maxDepth ≤ depth then .error .malformed
    else do
      let vs ← itemValues (depth + 1) items
      match closing.fault? with
      | some f => .error f
      | none => .ok (.array vs)
  | .object members _ closing =>
    if maxDepth ≤ depth then .error .malformed
    else do
      let ms ← memberValues (depth + 1) [] members
      match closing.fault? with
      | some f => .error f
      | none => .ok (.object ms)
  | .brokenWord f => .error f
  | .missing f => .error f

/-- The values of items. -/
def itemValues (depth : Nat) : List Tree → Except Fault (List Value)
  | [] => .ok []
  | t :: rest => do
    let v ← t.value depth
    let vs ← itemValues depth rest
    .ok (v :: vs)

/-- The values of members, added to those read before. -/
def memberValues (depth : Nat) (before : Members) :
    List (Key × Tree) → Except Fault Members
  | [] => .ok before
  | (key, t) :: rest => do
    let name ← key.name
    let v ← t.value depth
    memberValues depth (before.insert name v) rest

end

end Tree

/-- The value of a text. -/
def Document.value (d : Document) : Except Fault Value := do
  let v ← d.root.value 0
  match d.tail with
  | some f => .error f
  | none => .ok v

/-- Reads the value of a text. -/
def Value.read (text : String) : Except Fault Value := (Document.read text).value

/-! ## Values as trees -/

/-- A place for trees that come from no text. -/
def Spot.nowhere : Spot := ⟨0, 0⟩

namespace Value

mutual

/-- The tree of a value, for typed readers. -/
def tree : Value → Tree
  | .null => .null .nowhere
  | .bool b => .bool b .nowhere
  | .number n => .number (.ok n) .nowhere
  | .text s => .text (.ok s) .nowhere
  | .array items => .array (itemTrees items) .nowhere (.closed .nowhere)
  | .object members => .object (memberTrees members) .nowhere (.closed .nowhere)

/-- The trees of items. -/
def itemTrees : List Value → List Tree
  | [] => []
  | v :: rest => v.tree :: itemTrees rest

/-- The trees of members. -/
def memberTrees : List (String × Value) → List (Key × Tree)
  | [] => []
  | (k, v) :: rest => (⟨.ok k, .nowhere, .nowhere⟩, v.tree) :: memberTrees rest

end

end Value

end Irrigation.Json
