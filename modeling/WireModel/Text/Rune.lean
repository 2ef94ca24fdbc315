import WireModel.Text.Basic
import WireModel.Text.Case
import WireModel.Text.Printable

/-!
# Runes — the characters of a text

A text is read as UTF-8, character by character. A byte that starts no valid sequence is a
character of its own, so every text has runes and the bytes of its runes are the text again.
On top of the runes stand the blanks, the case mappings and the quoted form of a text.
-/

namespace WireModel

/-- A character of a text. -/
inductive Rune where
  /-- A code point that is written by a valid sequence. -/
  | code (c : Nat)
  /-- A byte that belongs to no valid sequence. -/
  | stray (b : UInt8)
  deriving DecidableEq, Inhabited

namespace Text

/-! ## Writing -/

/-- The UTF-8 bytes of a code point. -/
def ofRune (c : Nat) : Text :=
  if c < 0x80 then [c.toUInt8]
  else if c < 0x800 then [(0xC0 + c / 0x40).toUInt8, (0x80 + c % 0x40).toUInt8]
  else if c < 0x10000 then
    [(0xE0 + c / 0x1000).toUInt8, (0x80 + c / 0x40 % 0x40).toUInt8, (0x80 + c % 0x40).toUInt8]
  else
    [(0xF0 + c / 0x40000).toUInt8, (0x80 + c / 0x1000 % 0x40).toUInt8,
      (0x80 + c / 0x40 % 0x40).toUInt8, (0x80 + c % 0x40).toUInt8]

/-- The code point that stands for what cannot be read. -/
def replacement : Nat := 0xFFFD

/-! ## Reading -/

/-- A byte that continues a sequence, within the given bounds. -/
def continues (lo hi : Nat) (b : UInt8) : Bool := decide (lo ≤ b.toNat) && decide (b.toNat ≤ hi)

/-- The six bits a continuation byte carries. -/
def sixBits (b : UInt8) : Nat := b.toNat % 0x40

/-- The rune that starts with byte `a`, and how many of the following bytes belong to it. The
second byte is bounded more tightly after `E0`, `ED`, `F0` and `F4`, which keeps out overlong
forms, surrogates and code points past the last one. -/
def firstRune (a : UInt8) (rest : Text) : Rune × Nat :=
  let n := a.toNat
  if n < 0x80 then (.code n, 0)
  else if n < 0xC2 then (.stray a, 0)
  else if n < 0xE0 then
    match rest with
    | b :: _ => if continues 0x80 0xBF b then (.code (n % 0x20 * 0x40 + sixBits b), 1) else (.stray a, 0)
    | _ => (.stray a, 0)
  else if n < 0xF0 then
    match rest with
    | b :: c :: _ =>
      let lo := if n = 0xE0 then 0xA0 else 0x80
      let hi := if n = 0xED then 0x9F else 0xBF
      if continues lo hi b && continues 0x80 0xBF c then
        (.code ((n % 0x10 * 0x40 + sixBits b) * 0x40 + sixBits c), 2)
      else (.stray a, 0)
    | _ => (.stray a, 0)
  else if n < 0xF5 then
    match rest with
    | b :: c :: d :: _ =>
      let lo := if n = 0xF0 then 0x90 else 0x80
      let hi := if n = 0xF4 then 0x8F else 0xBF
      if continues lo hi b && continues 0x80 0xBF c && continues 0x80 0xBF d then
        (.code (((n % 0x8 * 0x40 + sixBits b) * 0x40 + sixBits c) * 0x40 + sixBits d), 3)
      else (.stray a, 0)
    | _ => (.stray a, 0)
  else (.stray a, 0)

/-- The runes of a text after `skip` more bytes of the rune before it. -/
def runesAfter : (skip : Nat) → Text → List Rune
  | _, [] => []
  | skip + 1, _ :: bs => runesAfter skip bs
  | 0, b :: bs =>
    let (r, skip) := firstRune b bs
    r :: runesAfter skip bs

/-- The runes of a text. -/
def runes (t : Text) : List Rune := runesAfter 0 t

/-- Whether a text is valid UTF-8. -/
def isValid (t : Text) : Bool :=
  t.runes.all fun
    | .code _ => true
    | .stray _ => false

end Text

namespace Rune

/-- The bytes of a rune. -/
def bytes : Rune → Text
  | code c => Text.ofRune c
  | stray b => [b]

/-- The code point of a rune; a stray byte reads as the replacement character. -/
def codePoint : Rune → Nat
  | code c => c
  | stray _ => Text.replacement

/-- Whether a code point is white space. -/
def isBlankCode (c : Nat) : Bool :=
  (decide (0x09 ≤ c) && decide (c ≤ 0x0D)) || c == 0x20 || c == 0x85 || c == 0xA0 || c == 0x1680 ||
    (decide (0x2000 ≤ c) && decide (c ≤ 0x200A)) || c == 0x2028 || c == 0x2029 || c == 0x202F ||
    c == 0x205F || c == 0x3000

/-- Whether a rune is white space. -/
def isBlank (r : Rune) : Bool := isBlankCode r.codePoint

end Rune

namespace Text

/-- The bytes of a list of runes. -/
def ofRunes (rs : List Rune) : Text := rs.flatMap Rune.bytes

/-! ## White space -/

/-- The text without the blanks it starts with, after `skip` more bytes of a blank. -/
def trimStartAfter : (skip : Nat) → Text → Text
  | _, [] => []
  | skip + 1, _ :: bs => trimStartAfter skip bs
  | 0, b :: bs =>
    let (r, skip) := firstRune b bs
    if r.isBlank then trimStartAfter skip bs else b :: bs

/-- The text without the blanks it starts with. -/
def trimStart (t : Text) : Text := trimStartAfter 0 t

/-- The text without the blanks at both ends. -/
def trim (t : Text) : Text :=
  ofRunes ((trimStart t).runes.reverse.dropWhile Rune.isBlank).reverse

/-- Whether a text holds nothing but blanks. -/
def isBlank (t : Text) : Bool := (trimStart t).isEmpty

/-! ## Case -/

/-- The text with its lower case letters; a stray byte becomes the replacement character. -/
def toLower (t : Text) : Text := t.runes.flatMap fun r => ofRune (lowerRune r.codePoint)

/-- The text with its upper case letters; a stray byte becomes the replacement character. -/
def toUpper (t : Text) : Text := t.runes.flatMap fun r => ofRune (upperRune r.codePoint)

/-! ## Words between separators -/

/-- The maximal runs of runes outside a class. -/
def fieldsBy (sep : Rune → Bool) (t : Text) : List Text :=
  (go t.runes).filter (· != [])
where
  /-- The runs between the separators, empty ones included. -/
  go : List Rune → List Text
    | [] => [[]]
    | r :: rs =>
      if sep r then [] :: go rs
      else
        match go rs with
        | [] => [r.bytes]
        | part :: parts => (r.bytes ++ part) :: parts

/-! ## Quoted text -/

/-- How a rune is written between double quotes. -/
def quoteRune : Rune → Text
  | .stray b => "\\x" ++ ofHex 2 b.toNat
  | .code c =>
    if c == '"'.toNat then "\\\""
    else if c == '\\'.toNat then "\\\\"
    else if isPrintable c then ofRune c
    else if c == 0x07 then "\\a"
    else if c == 0x08 then "\\b"
    else if c == 0x0C then "\\f"
    else if c == 0x0A then "\\n"
    else if c == 0x0D then "\\r"
    else if c == 0x09 then "\\t"
    else if c == 0x0B then "\\v"
    else if c < 0x20 || c == 0x7F then "\\x" ++ ofHex 2 c
    else if c < 0x10000 then "\\u" ++ ofHex 4 c
    else "\\U" ++ ofHex 8 c

/-- The text between double quotes, with everything escaped that is not printable. -/
def quote (t : Text) : Text := "\"" ++ t.runes.flatMap quoteRune ++ "\""

end Text

end WireModel
