import WireModel.Number.Power
import WireModel.Text.Rune

/-!
# Comments of generated source

A documentation text becomes a comment in front of what it documents. A text that is written as a
comment already is taken as it is; a text of several lines goes into a block comment, any other
behind two slashes.

A text may escape from its comment, or hold several comments. So what was written is read back:
`comments?` gives the comments a text starts with, and where they stand.

A comment may say that the lines after it count from another number. That decides which comments
stand on neighbouring lines, and such a note with a number that makes no sense spoils the file.
-/

namespace WireModel.Source.Comment

/-- The comment as it is first written. -/
def write (t : Text) : Text :=
  if ("//" : Text).isPrefixOf t || ("/*" : Text).isPrefixOf t then t
  else if t.contains '\n'.toUInt8 then
    "/*\n" ++ t ++ (if t.getLast? == some '\n'.toUInt8 then ([] : Text) else "\n") ++ "*/"
  else "// " ++ t

/-! ## Places -/

/-- A place in a text. -/
structure Spot where
  /-- How many bytes stand before it. -/
  offset : Nat := 0
  /-- How many lines end before it. -/
  line : Nat := 0
  /-- How many bytes of its line stand before it. -/
  column : Nat := 0
  /-- What notes add to the number of its line. -/
  shift : Int := 0
  deriving Inhabited

namespace Spot

/-- The place behind one more byte. -/
def step (s : Spot) (b : UInt8) : Spot :=
  if b == '\n'.toUInt8 then { s with offset := s.offset + 1, line := s.line + 1, column := 0 }
  else { s with offset := s.offset + 1, column := s.column + 1 }

/-- The place behind a text. -/
def skip (s : Spot) (t : Text) : Spot := t.foldl step s

/-- The number of the line by the notes before it. -/
def counted (s : Spot) : Int := s.line + s.shift

end Spot

/-! ## Notes about lines -/

/-- What a comment says about the number of the next line. -/
inductive LineNote where
  | absent
  | set (line : Int)
  /-- The comment is a note, but its number makes no sense. -/
  | faulty
  deriving Inhabited

/-- The greatest number a note may give. -/
def maxLine : Int := 1073741824

/-- A text of digits behind the last colon, and the text before; `none` for the number stands for
something else than a number. -/
def lastNumber? (t : Text) : Option (Text × Option Int) :=
  (t.cutLast? ':'.toUInt8).map fun (before, digits) =>
    let n := Text.digitsValue digits
    if digits.isEmpty || !digits.all Text.isDigit || twoPow 64 ≤ n then (before, none)
    else (before, some (if twoPow 63 ≤ n then (n : Int) - twoPow 64 else n))

/-- The note in a text after the words that announce one: a line, or a line and a column, behind
colons. -/
def LineNote.read (t : Text) : LineNote :=
  let isFaulty (n : Int) : Bool := n == 0 || maxLine < n
  match lastNumber? t with
  | none => .absent
  | some (_, none) => .faulty
  | some (before, some n) =>
    match lastNumber? before with
    | some (_, some line) => if isFaulty n || isFaulty line then .faulty else .set line
    | _ => if isFaulty n then .faulty else .set n

/-! ## Reading back -/

/-- A single comment with its marks. -/
structure Piece where
  /-- Where it starts. -/
  spot : Spot := {}
  isBlock : Bool
  /-- Its text without carriage returns. -/
  text : Text
  deriving Inhabited

namespace Piece

/-- The number of lines that end inside a comment. -/
def breaks (p : Piece) : Nat := if p.isBlock then p.text.count '\n'.toUInt8 else 0

/-- The line a comment ends on. -/
def endLine (p : Piece) : Nat := p.spot.line + p.breaks

/-- The line a comment ends on, by the notes before it. -/
def endCounted (p : Piece) : Int := p.spot.counted + p.breaks

/-- Where a comment ends, if its carriage returns do not count. -/
def stop (p : Piece) : Nat := p.spot.offset + p.text.length

end Piece

/-- A comment without carriage returns, except for one that keeps a star and a slash apart. `done` is
what has been kept so far, in reverse. -/
def dropReturns (isBlock : Bool) : (done : Text) → Text → Text
  | done, [] => done.reverse
  | done, b :: bs =>
    let parts := isBlock && 2 < done.length && done.head? == some '*'.toUInt8 &&
      bs.head? == some '/'.toUInt8
    if b == '\r'.toUInt8 && !parts then dropReturns isBlock done bs
    else dropReturns isBlock (b :: done) bs

/-- The text up to the end of a block comment, with its closing mark, and the rest. -/
def blockBody? : Text → Option (Text × Text)
  | a :: b :: rest =>
    if a == '*'.toUInt8 && b == '/'.toUInt8 then some ([a, b], rest)
    else (blockBody? (b :: rest)).map fun (t, rest) => (a :: t, rest)
  | _ => none

/-- The note in a comment. One behind slashes counts at the start of a line only. -/
def noteOf (isBlock : Bool) (column : Nat) (raw : Text) : LineNote :=
  if !isBlock && column != 0 then .absent
  else
    match Text.stripStart? "line " (raw.drop 2) with
    | none => .absent
    | some t =>
      LineNote.read
        (if isBlock then t.take (t.length - 2)
        else if t.getLast? == some '\r'.toUInt8 then t.dropLast else t)

/-- The place behind a comment, if its note makes sense. A note behind slashes counts from the next
line. -/
def behind? (isBlock : Bool) (s : Spot) (raw : Text) : Option Spot :=
  let after := s.skip raw
  match noteOf isBlock s.column raw with
  | .absent => some after
  | .faulty => none
  | .set n => some { after with shift := n - (after.line + (if isBlock then 0 else 1)) }

/-- A byte that stands between words of source. -/
def isGap (b : UInt8) : Bool :=
  b == ' '.toUInt8 || b == '\t'.toUInt8 || b == '\r'.toUInt8 || b == '\n'.toUInt8

/-- The comments a text starts with, the place behind them, and the rest of the text, which starts
with something else. The fuel bounds the number of steps. -/
def commentsFrom? : (fuel : Nat) → Spot → Text → Option (List Piece × Spot × Text)
  | 0, _, _ => none
  | _ + 1, s, [] => some ([], s, [])
  | fuel + 1, s, b :: bs =>
    let t := b :: bs
    let piece? (isBlock : Bool) (raw rest : Text) : Option (List Piece × Spot × Text) := do
      let after ← behind? isBlock s raw
      let (ps, rest) ← commentsFrom? fuel after rest
      pure (⟨s, isBlock, dropReturns isBlock [] raw⟩ :: ps, rest)
    if isGap b then commentsFrom? fuel (s.step b) bs
    else if ("//" : Text).isPrefixOf t then
      let raw := t.takeWhile (· != '\n'.toUInt8)
      piece? false raw (t.drop raw.length)
    else if ("/*" : Text).isPrefixOf t then
      match blockBody? (bs.drop 1) with
      | none => none
      | some (body, rest) => piece? true ("/*" ++ body) rest
    else some ([], s, t)

/-- Whether a text may stand in source: it is valid, and holds no zero and no mark of byte order. -/
def isReadable (t : Text) : Bool :=
  t.runes.all fun
    | .code c => c != 0 && c != 0xFEFF
    | .stray _ => false

/-- The comments a text starts with, the place behind them, and the rest of the text. -/
def comments? (t : Text) : Option (List Piece × Spot × Text) :=
  if isReadable t then commentsFrom? (t.length + 1) {} t else none

/-- The comments in groups that no empty line divides. -/
def groups : List Piece → List (List Piece)
  | [] => []
  | p :: ps =>
    match groups ps with
    | (q :: g) :: gs =>
      if q.spot.counted ≤ p.endCounted + 1 then (p :: q :: g) :: gs else [p] :: (q :: g) :: gs
    | gs => [p] :: gs

end WireModel.Source.Comment
