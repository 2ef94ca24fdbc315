import WireModel.Decode.Scalar

/-!
# Integers in machine words

`Value.toInt` judges a number by its value. A machine reads it in words: whatever kind it comes in,
the number is converted to a 64 bit word, the word is cut down to the width that is asked for, and
widened again to see whether it has changed. Every one of these conversions would give a wrong
number where it does not fit, so every one has a test in front of it or behind it.
-/

namespace WireModel

namespace IntKind

/-- The bits of a word of a kind. -/
def width : IntKind → Nat
  | int8 | uint8 => 8
  | int16 | uint16 => 16
  | int32 | uint32 => 32
  | int | int64 | uint | uint64 => 64

/-- Whether the words of a kind have no sign. -/
def isUnsigned : IntKind → Bool
  | uint | uint8 | uint16 | uint32 | uint64 => true
  | int | int8 | int16 | int32 | int64 => false

/-- Whether a word of a kind can hold an integer. -/
def holds (k : IntKind) (n : Int) : Bool :=
  if k.isUnsigned then decide (0 ≤ n) && decide (n < twoPow k.width) else fitsSigned k.width n

/-- A word of a kind as a 64 bit word, filled up with zeros or with its sign. -/
def widen (k : IntKind) (x : BitVec k.width) : BitVec 64 :=
  if k.isUnsigned then x.setWidth 64 else x.signExtend 64

end IntKind

namespace BinaryValue

/-- Whether a number is the same without what is after its point. What is no number is not even the
same as itself. -/
def isWhole : BinaryValue → Bool
  | finite _ m q => decide (0 ≤ q) || m % twoPow (-q).toNat == 0
  | infinite _ => true
  | nan => false

/-- Whether a number is less than an integer. -/
def lt : BinaryValue → Int → Bool
  | finite neg m q, n =>
    let s : Int := if neg then -m else m
    decide (s * twoPow q.toNat < n * twoPow (-q).toNat)
  | infinite neg, _ => neg
  | nan, _ => false

/-- Whether a number is at least an integer. -/
def ge : BinaryValue → Int → Bool
  | finite neg m q, n =>
    let s : Int := if neg then -m else m
    decide (n * twoPow (-q).toNat ≤ s * twoPow q.toNat)
  | infinite neg, _ => !neg
  | nan, _ => false

/-- The integer that is left of a number without what is after its point. -/
def cut : BinaryValue → Int
  | finite neg m q =>
    let n : Nat := if 0 ≤ q then m * twoPow q.toNat else m / twoPow (-q).toNat
    if neg then -n else n
  | infinite _ | nan => 0

end BinaryValue

namespace Value

/-- The word of a floating point number that is an integer and fits. The least signed word is a
floating point number; the greatest is not, and stands for the next power of two. -/
def wordOfDouble (bits : Nat) : Decoded (BitVec 64) :=
  let x := Binary.double.decode bits
  if !x.isWhole || x.lt (-twoPow 63) || x.ge (twoPow 63) then
    .error (.numeric (Binary.double.display bits ++ " is not an integer"))
  else .ok (BitVec.ofInt 64 x.cut)

/-- The word of a number of any kind, if it fits. -/
def toWord64 : Value → Decoded (BitVec 64)
  | int .uint64 n =>
    let x := BitVec.ofInt 64 n
    if twoPow 63 - 1 < x.toNat then .error (.numeric (Text.ofNat x.toNat ++ " overflows int64"))
    else .ok x
  | int .uint n =>
    let x := BitVec.ofInt 64 n
    if x.toNat ≤ twoPow 63 - 1 then .ok x else .error (.mismatch "integer" (int .uint n))
  | int k n => .ok (k.widen (BitVec.ofInt k.width n))
  | float64 bits => wordOfDouble bits
  | float32 bits => wordOfDouble (Binary.single.widen .double bits)
  | number t =>
    match t.toSigned? 64 with
    | some n => .ok (BitVec.ofInt 64 n)
    | none => .error (.numeric (t.quote ++ " is not an integer"))
  | v => .error (.mismatch "integer" v)

/-- The word of a number of any kind, cut down to a width that it fits. -/
def toWord (width : Nat) (v : Value) : Decoded (BitVec width) := do
  let x ← v.toWord64
  let y := x.setWidth width
  if y.signExtend 64 = x then .ok y
  else .error (.numeric (Text.ofInt x.toInt ++ " overflows " ++ (IntKind.signed width).name))

end Value

end WireModel
