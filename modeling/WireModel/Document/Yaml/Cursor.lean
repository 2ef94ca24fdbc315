import WireModel.Text.Rune

/-!
# YAML characters

A YAML text is read character by character, and where a character stands matters: blocks are told
apart by the column they start in. `Cursor` is what is left of a text together with the line, the
column and the number of characters before it.

A text has to be valid UTF-8 without control characters. Its line breaks are unified when it is
taken apart, except the two Unicode separators, which end a line but are kept as they are.
-/

namespace WireModel.Yaml

/-! ## Characters -/

/-- Whether a character may stand in a text at all. -/
def isAllowed (c : Char) : Bool :=
  let n := c.toNat
  n == 0x09 || n == 0x0A || n == 0x0D || (decide (0x20 ≤ n) && decide (n ≤ 0x7E)) || n == 0x85 ||
    (decide (0xA0 ≤ n) && decide (n ≤ 0xFFFD)) || decide (0x10000 ≤ n)

/-- One kind of line break for all, except the Unicode separators. -/
def unifyBreaks : List Char → List Char
  | [] => []
  | '\r' :: '\n' :: cs => '\n' :: unifyBreaks cs
  | c :: cs => (if c == '\r' || c == '\u0085' then '\n' else c) :: unifyBreaks cs

/-- The characters of a text, if it is one. A byte order mark at the start is dropped. -/
def characters? (t : Text) : Option (List Char) :=
  if !t.isValid then none
  else
    let cs := t.runes.map fun r => Char.ofNat r.codePoint
    if !cs.all isAllowed then none
    else
      match cs with
      | '\uFEFF' :: cs => some (unifyBreaks cs)
      | cs => some (unifyBreaks cs)

/-- The bytes of characters. -/
def bytesOf (cs : List Char) : Text := cs.flatMap fun c => Text.ofRune c.toNat

/-- Whether a character ends a line. -/
def isBreak (c : Char) : Bool := c == '\n' || c == '\u2028' || c == '\u2029'

/-- Whether a character is a space or a tab. -/
def isBlank (c : Char) : Bool := c == ' ' || c == '\t'

/-! ## Cursors -/

/-- What is left of a text, and where it starts: line and column are counted from zero. -/
structure Cursor where
  rest : List Char
  line : Nat := 0
  column : Nat := 0
  index : Nat := 0
  /-- The number of characters of the whole text, which bounds every search in it. -/
  size : Nat := rest.length
  deriving Inhabited

namespace Cursor

/-- The next character. -/
def peek? (c : Cursor) : Option Char := c.rest.head?

/-- Whether the next character is the given one. -/
def sees (c : Cursor) (x : Char) : Bool := c.peek? == some x

/-- Whether the next character is a space or a tab. -/
def atBlank (c : Cursor) : Bool := c.peek?.any isBlank

/-- Whether the next character ends a line. -/
def atBreak (c : Cursor) : Bool := c.peek?.any isBreak

/-- Whether nothing is left or the next character is a blank or ends a line. -/
def atGap (c : Cursor) : Bool := c.peek?.all fun x => isBlank x || isBreak x

/-- The cursor behind the next character. -/
def next (c : Cursor) : Cursor :=
  match c.rest with
  | [] => c
  | x :: xs =>
    if isBreak x then { c with rest := xs, line := c.line + 1, column := 0, index := c.index + 1 }
    else { c with rest := xs, column := c.column + 1, index := c.index + 1 }

/-- The cursor behind the next `n` characters. -/
def skip : Nat → Cursor → Cursor
  | 0, c => c
  | n + 1, c => skip n c.next

/-- The characters of a class that come next, and the cursor behind them. -/
def takeWhile (p : Char → Bool) (c : Cursor) : List Char × Cursor :=
  let taken := c.rest.takeWhile p
  (taken, c.skip taken.length)

/-- The cursor behind the characters of a class that come next. -/
def skipWhile (p : Char → Bool) (c : Cursor) : Cursor := (c.takeWhile p).2

/-- Whether a line starts here with three marks and a gap behind them. -/
def atMark (x : Char) (c : Cursor) : Bool :=
  c.column == 0 && c.rest.take 3 == [x, x, x] && (c.skip 3).atGap

/-- Whether a line starts here that separates documents. -/
def atDocumentMark (c : Cursor) : Bool := c.atMark '-' || c.atMark '.'

end Cursor

end WireModel.Yaml
