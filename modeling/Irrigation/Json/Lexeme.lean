import Irrigation.Json.Number

/-!
# Lexemes of a JSON text

A text is cut into lexemes: punctuation, words, numbers and quoted texts, each with the place
where it begins and the place behind it. A fault inside a lexeme is kept in the lexeme, since
it counts only if a reader gets there and takes the lexeme for a value. A reader that wants a
quoted text or a number (`strict`) can find a fault where one that only skips it (`loose`) finds
none, such as half of a surrogate pair.
-/

namespace Irrigation.Json

/-- A place in a text: its line from 1, and the number of bytes before it in the line. -/
structure Spot where
  line : Nat
  column : Nat
  deriving DecidableEq, Repr

/-- The words of the notation. -/
inductive Word
  | null
  | true
  | false
  deriving DecidableEq, Repr

/-- The kinds of lexemes. -/
inductive Token
  | openBracket
  | closeBracket
  | openBrace
  | closeBrace
  | comma
  | colon
  | word (w : Except Fault Word)
  | number (strict : Except Fault Number) (loose : Except Fault Unit)
  | quoted (strict : Except Fault String) (loose : Except Fault Unit)
  /-- A character that begins no lexeme. -/
  | stray

/-- A lexeme and where it stands. -/
structure Lexeme where
  token : Token
  start : Spot
  stop : Spot

/-- The lexemes of a text, and the place where the text ends. -/
structure Lexemes where
  all : List Lexeme
  stop : Spot

/-! ## Quoted texts -/

/-- The value of a hexadecimal digit. -/
def hexValue? (c : Char) : Option Nat :=
  if '0' ≤ c ∧ c ≤ '9' then some (c.toNat - '0'.toNat)
  else if 'a' ≤ c ∧ c ≤ 'f' then some (c.toNat - 'a'.toNat + 10)
  else if 'A' ≤ c ∧ c ≤ 'F' then some (c.toNat - 'A'.toNat + 10)
  else none

/-- The number of bytes of some characters. -/
def byteCount (cs : List Char) : Nat := (String.ofList cs).utf8ByteSize

/-- The number that four hexadecimal digits stand for. Fewer than four bytes are an incomplete
text, other characters a malformed one. -/
def hexCode : List Char → Except Fault Nat
  | a :: b :: c :: d :: _ =>
    match hexValue? a, hexValue? b, hexValue? c, hexValue? d with
    | some a, some b, some c, some d => .ok (((a * 16 + b) * 16 + c) * 16 + d)
    | _, _, _, _ => .error .malformed
  | cs => if byteCount cs < 4 then .error .incomplete else .error .malformed

/-- The character of a simple escape. -/
def unescape? : Char → Option Char
  | '"' => some '"'
  | '\\' => some '\\'
  | '/' => some '/'
  | 'b' => some '\x08'
  | 'f' => some '\x0c'
  | 'n' => some '\n'
  | 'r' => some '\r'
  | 't' => some '\t'
  | _ => none

/-- What follows the first half of a surrogate pair: the second half, and the text behind it. -/
def secondHalf : List Char → Except Fault (Nat × List Char)
  | [] => .error .incomplete
  | ['\\'] => .error .incomplete
  | '\\' :: 'u' :: rest =>
    match hexCode rest with
    | .error f => .error f
    | .ok n =>
      if 0xdc00 ≤ n ∧ n ≤ 0xdfff then .ok (n, rest.drop 4) else .error .malformed
  | _ => .error .malformed

/-- The character of an escape by number, and how many characters more than the four digits it
takes. A half of a surrogate pair needs the other half. -/
def escapedCode (rest : List Char) : Except Fault (Char × Nat) :=
  match hexCode rest with
  | .error f => .error f
  | .ok n =>
    if 0xdc00 ≤ n ∧ n ≤ 0xdfff then .error .malformed
    else if 0xd800 ≤ n ∧ n ≤ 0xdbff then
      match secondHalf (rest.drop 4) with
      | .error f => .error f
      | .ok (m, _) => .ok (Char.ofNat (0x10000 + (n - 0xd800) * 0x400 + (m - 0xdc00)), 6)
    else .ok (Char.ofNat n, 0)

/-- Reads a quoted text behind its opening quote. The first argument says how many characters
are passed over: those of an escape by number that has been read already. -/
def readQuoted : Nat → List Char → Except Fault (List Char)
  | _, [] => .error .incomplete
  | skip + 1, _ :: rest => readQuoted skip rest
  | 0, '"' :: _ => .ok []
  | 0, '\\' :: [] => .error .incomplete
  | 0, '\\' :: 'u' :: rest =>
    match escapedCode rest with
    | .error f => .error f
    | .ok (c, more) => (readQuoted (4 + more) rest).map (c :: ·)
  | 0, '\\' :: e :: rest =>
    match unescape? e with
    | none => .error .malformed
    | some c => (readQuoted 0 rest).map (c :: ·)
  | 0, c :: rest =>
    if c.toNat < 32 then .error .malformed else (readQuoted 0 rest).map (c :: ·)

/-- Skips a quoted text behind its opening quote. Returns the rest and the bytes passed over. -/
def skipQuoted : Nat → List Char → Except Fault (List Char × Nat)
  | _, [] => .error .incomplete
  | skip + 1, c :: rest => (skipQuoted skip rest).map fun (r, n) => (r, n + c.utf8Size)
  | 0, '"' :: rest => .ok (rest, 1)
  | 0, '\\' :: [] => .error .incomplete
  | 0, '\\' :: 'u' :: rest =>
    match hexCode rest with
    | .error f => .error f
    | .ok _ => (skipQuoted 4 rest).map fun (r, n) => (r, n + 2)
  | 0, '\\' :: e :: rest =>
    match unescape? e with
    | none => .error .malformed
    | some _ => (skipQuoted 0 rest).map fun (r, n) => (r, n + 2)
  | 0, c :: rest =>
    if c.toNat < 32 then .error .malformed
    else (skipQuoted 0 rest).map fun (r, n) => (r, n + c.utf8Size)

/-! ## Cutting -/

/-- Reads the rest of a word. -/
def expectWord (w : Word) : List Char → List Char → Except Fault (Word × List Char)
  | [], cs => .ok (w, cs)
  | _ :: _, [] => .error .incomplete
  | e :: more, c :: rest => if c = e then expectWord w more rest else .error .malformed

/-- The lexeme at the front of a text that starts with `c`, the text behind it if one can read
on there, and the number of bytes it takes. -/
def nextToken (c : Char) (rest : List Char) : Token × Option (List Char) × Nat :=
  let word (w : Word) (more : String) :=
    match expectWord w more.toList rest with
    | .ok (w, rest) => (Token.word (.ok w), some rest, more.length + 1)
    | .error f => (Token.word (.error f), none, 1)
  match c with
  | '[' => (.openBracket, some rest, 1)
  | ']' => (.closeBracket, some rest, 1)
  | '\x7b' => (.openBrace, some rest, 1)
  | '\x7d' => (.closeBrace, some rest, 1)
  | ',' => (.comma, some rest, 1)
  | ':' => (.colon, some rest, 1)
  | 'n' => word .null "ull"
  | 't' => word .true "rue"
  | 'f' => word .false "alse"
  | '"' =>
    let strict := (readQuoted 0 rest).map String.ofList
    match skipQuoted 0 rest with
    | .ok (rest, bytes) => (.quoted strict (.ok ()), some rest, bytes + 1)
    | .error f => (.quoted strict (.error f), none, 1)
  | c =>
    if c = '-' ∨ (Text.digitValue? c).isSome then
      let scan := scanNumber (c :: rest)
      match scan.loose with
      | .ok after => (.number scan.strict (.ok ()), some after, rest.length + 1 - after.length)
      | .error f => (.number scan.strict (.error f), none, 1)
    else (.stray, none, c.utf8Size)

/-- Cuts a text into lexemes. The first argument bounds their number; the length of the text is
enough. Nothing is cut behind a fault. -/
def cut : Nat → Spot → List Char → Lexemes
  | _, here, [] => ⟨[], here⟩
  | 0, here, _ => ⟨[], here⟩
  | steps + 1, here, c :: rest =>
    if c = '\n' then cut steps ⟨here.line + 1, 0⟩ rest
    else if c = ' ' ∨ c = '\t' ∨ c = '\r' then cut steps ⟨here.line, here.column + 1⟩ rest
    else
      let (token, after, bytes) := nextToken c rest
      let stop : Spot := ⟨here.line, here.column + bytes⟩
      match after with
      | none => ⟨[⟨token, here, stop⟩], stop⟩
      | some rest =>
        let more := cut steps stop rest
        ⟨⟨token, here, stop⟩ :: more.all, more.stop⟩

/-- The lexemes of a text. -/
def lexemes (text : String) : Lexemes :=
  let cs := text.toList
  cut cs.length ⟨1, 0⟩ cs

end Irrigation.Json
