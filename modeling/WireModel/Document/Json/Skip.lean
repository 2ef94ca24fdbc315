import WireModel.Document.Json.Scalar

/-!
# Passing over JSON

A value that nobody wants is not read: only its end is looked for. Inside of brackets nothing counts
but brackets of the same kind, strings, and how deep the nesting is.
-/

namespace WireModel.Json

/-- The rest of a text behind the quote that closes a string. A backslash hides what is behind it. -/
def skipString? : Text → Option Text
  | [] => none
  | [b] => if b == '"'.toUInt8 then some [] else none
  | b :: c :: bs =>
    if b == '"'.toUInt8 then some (c :: bs)
    else if b == 0 then none
    else if b == '\\'.toUInt8 then (if c == 0 then none else skipString? bs)
    else skipString? (c :: bs)

/-- Where a byte inside of brackets stands. -/
inductive Inside where
  | brackets
  | string
  /-- Behind a backslash in a string. -/
  | escape
  deriving DecidableEq

/-- The rest of a text behind the bracket that closes the `count`th of some open brackets. `depth` says
how deep the nesting is. -/
def skipNested? (opening closing : UInt8) : (count : Nat) → (depth : Int) → Inside → Text →
    Option Text
  | _, _, _, [] => none
  | count, depth, inside, b :: bs =>
    if b == 0 then none
    else
      match inside with
      | .escape => skipNested? opening closing count depth .string bs
      | .string =>
        skipNested? opening closing count depth
          (if b == '\\'.toUInt8 then .escape else if b == '"'.toUInt8 then .brackets else .string) bs
      | .brackets =>
        if b == '"'.toUInt8 then skipNested? opening closing count depth .string bs
        else if b == '\x7b'.toUInt8 || b == '['.toUInt8 then
          if (maxDepth : Int) < depth + 1 then none
          else
            skipNested? opening closing (if b == opening then count + 1 else count) (depth + 1)
              .brackets bs
        else if b == closing && count ≤ 1 then some bs
        else if b == '\x7d'.toUInt8 || b == ']'.toUInt8 then
          skipNested? opening closing (if b == closing then count - 1 else count) (depth - 1)
            .brackets bs
        else skipNested? opening closing count depth .brackets bs

/-- The rest of a text behind the value it starts with. -/
def skipValue? (depth : Nat) (t : Text) : Option Text :=
  match skipSpace t with
  | [] => none
  | b :: bs =>
    let word? (w : Text) : Option Text := Text.stripStart? w (b :: bs)
    if b == '\x7b'.toUInt8 then skipNested? b '\x7d'.toUInt8 1 (depth + 1) .brackets bs
    else if b == '['.toUInt8 then skipNested? b ']'.toUInt8 1 (depth + 1) .brackets bs
    else if b == '"'.toUInt8 then skipString? bs
    else if Text.isDigit b || b == '-'.toUInt8 then some (bs.dropWhile isNumberByte)
    else if b == 't'.toUInt8 then word? "true"
    else if b == 'f'.toUInt8 then word? "false"
    else if b == 'n'.toUInt8 then word? "null"
    else none

/-- The value a text starts with, as it is written, and the rest of the text. -/
def rawValue? (depth : Nat) (t : Text) : Option (Text × Text) :=
  let t := skipSpace t
  (skipValue? depth t).map fun rest => (t.take (t.length - rest.length), rest)

end WireModel.Json
