import WireModel.Document.Basic
import WireModel.Text.Rune

/-!
# Scalars in JSON

Strings, their escapes, and runs of number characters. Strings may hold control characters other than
NUL. A lone surrogate becomes the replacement character.
-/

namespace WireModel.Json

/-- White space between tokens. -/
def isSpace (b : UInt8) : Bool :=
  b == ' '.toUInt8 || b == '\t'.toUInt8 || b == '\n'.toUInt8 || b == '\r'.toUInt8

/-- A text without the white space it starts with. -/
def skipSpace (t : Text) : Text := t.dropWhile isSpace

/-- How deep lists and objects may be nested. -/
def maxDepth : Nat := 10000

/-- A byte of a number. -/
def isNumberByte (b : UInt8) : Bool :=
  Text.isDigit b || b == '.'.toUInt8 || b == 'e'.toUInt8 || b == 'E'.toUInt8 ||
    b == '+'.toUInt8 || b == '-'.toUInt8

/-! ## Escapes -/

/-- The code of the four digits of an escape. What is no hexadecimal digit counts as zero. -/
def escapeCode (a b c d : UInt8) : Nat :=
  let v (x : UInt8) : Nat := (Text.hexValue? x).getD 0
  ((v a * 16 + v b) * 16 + v c) * 16 + v d

/-- Whether a code is one half of a surrogate pair. -/
def isSurrogate (c : Nat) : Bool := decide (0xD800 ≤ c) && decide (c < 0xE000)

/-- The code point of a surrogate pair. -/
def surrogatePair? (hi lo : Nat) : Option Nat :=
  if 0xD800 ≤ hi ∧ hi < 0xDC00 ∧ 0xDC00 ≤ lo ∧ lo < 0xE000 then
    some (0x10000 + (hi - 0xD800) * 0x400 + (lo - 0xDC00))
  else none

/-- What a `\u` escape stands for and how many bytes it takes, from the first digit on. Something
has to follow the digits. -/
def unicodeEscape? : Text → Option (Nat × Nat)
  | a :: b :: c :: d :: e :: rest =>
    let code := escapeCode a b c d
    if !isSurrogate code then some (code, 4)
    else
      match e, rest with
      | slash, u :: p :: q :: r :: s :: _ :: _ =>
        if slash == '\\'.toUInt8 && u == 'u'.toUInt8 then
          match surrogatePair? code (escapeCode p q r s) with
          | some c => some (c, 10)
          | none => some (Text.replacement, 4)
        else some (Text.replacement, 4)
      | _, _ => some (Text.replacement, 4)
  | _ => none

/-- What an escape of one letter stands for. -/
def shortEscape? (b : UInt8) : Option UInt8 :=
  if b == '"'.toUInt8 || b == '\\'.toUInt8 || b == '/'.toUInt8 then some b
  else if b == 'b'.toUInt8 then some 0x08
  else if b == 'f'.toUInt8 then some 0x0C
  else if b == 'n'.toUInt8 then some 0x0A
  else if b == 'r'.toUInt8 then some 0x0D
  else if b == 't'.toUInt8 then some 0x09
  else none

/-! ## Strings -/

/-- How strings are read. -/
structure StringRules where
  /-- Whether the digits of a `\u` escape have to be hexadecimal digits. -/
  hexOnly : Bool := false
  /-- Whether a surrogate needs its other half. -/
  pairsOnly : Bool := false
  /-- Whether a byte may stand for itself. -/
  isPlain : UInt8 → Bool := (· != 0)

/-- Whether four hexadecimal digits come first. -/
def startsWithHex (t : Text) : Bool :=
  (t.take 4).length == 4 && (t.take 4).all fun b => (Text.hexValue? b).isSome

/-- A `\u` escape by some rules. -/
def StringRules.escape? (r : StringRules) (t : Text) : Option (Nat × Nat) := do
  if r.hexOnly && !startsWithHex t then none
  let (c, n) ← unicodeEscape? t
  if r.pairsOnly && c == Text.replacement && n == 4 && isSurrogate (surrogateOf t) then none
  some (c, n)
where
  /-- The code of the first four digits. -/
  surrogateOf : Text → Nat
    | a :: b :: c :: d :: _ => escapeCode a b c d
    | _ => 0

/-- The content of a string up to its closing quote, and the rest of the text. `skip` counts bytes
that belong to an escape already read. -/
def stringBody? (r : StringRules) : (skip : Nat) → Text → Option (Text × Text)
  | _, [] => none
  | skip + 1, _ :: bs => stringBody? r skip bs
  | 0, b :: bs =>
    if b == '"'.toUInt8 then some ([], bs)
    else if !r.isPlain b then none
    else if b != '\\'.toUInt8 then (stringBody? r 0 bs).map fun (t, rest) => (b :: t, rest)
    else
      match bs.head? with
      | none => none
      | some e =>
        if e == 'u'.toUInt8 then
          match r.escape? (bs.drop 1) with
          | none => none
          | some (c, n) =>
            (stringBody? r (n + 1) bs).map fun (t, rest) => (Text.ofRune c ++ t, rest)
        else
          match shortEscape? e with
          | none => none
          | some x => (stringBody? r 1 bs).map fun (t, rest) => (x :: t, rest)

end WireModel.Json
