import WireModel.Document.Json.Scalar
import WireModel.Number.Literal

/-!
# Reading JSON

Values, lists and objects, with the scalars of a `Dialect`. The dialect of a stream of values is
generous where that does no harm: a number is any run of number characters that reads as a floating
point number in range, and digits of a `\u` escape that are no hexadecimal digits count as zero. A key
may be null, which stands for the empty text. One letter of a word may be missing where the text ends
or holds a NUL.

`Json.start?` reads the value a stream starts with.
-/

namespace WireModel.Json

/-- The rest of a text that is read. -/
structure Cursor where
  rest : Text
  /-- Whether a letter of a word may still be missing. -/
  isLenient : Bool := true
  deriving Inhabited

namespace Cursor

/-- A cursor moved over `n` bytes. -/
def skip (n : Nat) (c : Cursor) : Cursor := { c with rest := c.rest.drop n }

/-- A cursor moved over the white space it stands at. -/
def skipSpace (c : Cursor) : Cursor := { c with rest := Json.skipSpace c.rest }

/-- A cursor moved over a byte that has to be there. -/
def expect? (b : UInt8) (c : Cursor) : Option Cursor :=
  if c.rest.head? == some b then some (c.skip 1) else none

end Cursor

/-- How the scalars of JSON are read. -/
structure Dialect where
  strings : StringRules
  /-- What the text of a number is taken for. -/
  number? : Text → Option ScalarKind
  /-- The cursor behind the letters of a word, the first of which is there. -/
  word? : Text → Cursor → Option Cursor

/-! ## Words -/

/-- The cursor behind a word. -/
def strictWord? (word : Text) (c : Cursor) : Option Cursor :=
  if word.isPrefixOf c.rest then some (c.skip word.length) else none

/-- The cursor behind a word of which one letter may be missing. -/
def lenientWord? : Text → Cursor → Option Cursor
  | [], c => some c
  | w :: ws, c =>
    match c.rest with
    | [] => if c.isLenient then lenientWord? ws { c with isLenient := false } else none
    | b :: bs =>
      if b == w then lenientWord? ws { c with rest := bs }
      else if b == 0 && c.isLenient then lenientWord? ws { rest := bs, isLenient := false }
      else none

/-- The words for scalars. -/
def words : List (Text × ScalarKind) :=
  [("null", .null), ("true", .bool true), ("false", .bool false)]

/-! ## Values -/

namespace Dialect

variable (d : Dialect)

/-- The string a cursor stands at, after its opening quote. -/
def string? (c : Cursor) : Option (Text × Cursor) :=
  (stringBody? d.strings 0 c.rest).map fun (t, rest) => (t, { c with rest })

/-- The number a cursor stands at. -/
def numberAt? (c : Cursor) : Option (Doc × Cursor) :=
  let t : Text := c.rest.takeWhile isNumberByte
  (d.number? t).map fun kind => (.scalar kind t 0, c.skip t.length)

/-- The word a cursor stands at. -/
def wordAt? (c : Cursor) : Option (Doc × Cursor) := do
  let (word, kind) ← words.find? fun w => w.1.head? == c.rest.head?
  let stop ← d.word? word c
  pure (.scalar kind word 0, stop)

/-- The key a cursor stands at. -/
def key? (c : Cursor) : Option (Doc × Cursor) :=
  match c.expect? '"'.toUInt8 with
  | some inner => (d.string? inner).map fun (t, stop) => (.scalar .text t 0, stop)
  | none =>
    if c.rest.head? == some 'n'.toUInt8 then
      (d.word? "null" c).map fun stop => (.scalar .text [] 0, stop)
    else none

mutual

/-- The value a cursor stands at. The fuel bounds the number of steps; `depth` is how much deeper
the value may be nested. -/
def value? : (fuel depth : Nat) → Cursor → Option (Doc × Cursor)
  | 0, _, _ => none
  | fuel + 1, depth, c =>
    let c := c.skipSpace
    match c.rest.head? with
    | none => none
    | some b =>
      if b == '"'.toUInt8 then
        (d.string? (c.skip 1)).map fun (t, stop) => (.scalar .text t 0, stop)
      else if Text.isDigit b || b == '-'.toUInt8 then d.numberAt? c
      else if b == '['.toUInt8 || b == '\x7b'.toUInt8 then
        match depth with
        | 0 => none
        | depth + 1 =>
          let inner := (c.skip 1).skipSpace
          if b == '['.toUInt8 then
            match inner.expect? ']'.toUInt8 with
            | some stop => some (.list [] 0, stop)
            | none => (items? fuel depth inner).map fun (xs, stop) => (.list xs 0, stop)
          else
            match inner.expect? '\x7d'.toUInt8 with
            | some stop => some (.object [] 0, stop)
            | none => (members? fuel depth inner).map fun (es, stop) => (.object es 0, stop)
      else d.wordAt? c

/-- The items of a list, with its closing bracket. -/
def items? : (fuel depth : Nat) → Cursor → Option (List Doc × Cursor)
  | 0, _, _ => none
  | fuel + 1, depth, c =>
    match value? fuel depth c with
    | none => none
    | some (x, c) =>
      let c := c.skipSpace
      match c.expect? ','.toUInt8, c.expect? ']'.toUInt8 with
      | some c, _ => (items? fuel depth c).map fun (xs, c) => (x :: xs, c)
      | none, some c => some ([x], c)
      | none, none => none

/-- The entries of an object, with its closing brace. -/
def members? : (fuel depth : Nat) → Cursor → Option (List (Doc × Doc) × Cursor)
  | 0, _, _ => none
  | fuel + 1, depth, c =>
    match d.key? c.skipSpace with
    | none => none
    | some (k, c) =>
      match c.skipSpace.expect? ':'.toUInt8 with
      | none => none
      | some c =>
        match value? fuel depth c with
        | none => none
        | some (v, c) =>
          let c := c.skipSpace
          match c.expect? ','.toUInt8, c.expect? '\x7d'.toUInt8 with
          | some c, _ => (members? fuel depth c).map fun (es, c) => ((k, v) :: es, c)
          | none, some c => some ([(k, v)], c)
          | none, none => none

end

/-- The value a text starts with, and what follows it. Two steps per byte are always enough. -/
def start? (t : Text) : Option (Doc × Text) :=
  (d.value? (2 * t.length + 2) maxDepth { rest := t }).map fun (x, c) => (x, c.rest)

end Dialect

/-! ## Streams -/

/-- The dialect of a stream of values. -/
def stream : Dialect where
  strings := {}
  number? t :=
    match t.toDouble with
    | .error _ => none
    | .ok _ => some ((t.toSigned? 64).elim .float ScalarKind.int)
  word? := lenientWord?

/-- The value a stream starts with. A mark that parts values may come before it. -/
def start? (t : Text) : Option Doc :=
  let t := skipSpace t
  let isMark (b : UInt8) : Bool := b == ','.toUInt8 || b == ':'.toUInt8
  (stream.start? (if t.head?.any isMark then t.drop 1 else t)).map (·.1)

end WireModel.Json
