import WireModel.Number.Decimal
import WireModel.Decode.Error

/-!
# Decoding scalars

Numbers are judged by their value: any numeric kind is accepted as long as it holds a number that
fits. Numbers of any size are read from decimal texts, byte strings also from sequences of small
numbers.
-/

namespace WireModel

/-- The result of decoding. -/
abbrev Decoded (α : Type) := Except DecodeError α

namespace Value

/-! ## Integers -/

/-- The integer of a floating point number that is one and fits 64 bits. -/
def intOfDouble (bits : Nat) : Decoded Int :=
  match (Binary.double.decode bits).toInt?.filter (fitsSigned 64) with
  | some n => .ok n
  | none => .error (.numeric (Binary.double.display bits ++ " is not an integer"))

/-- The integer of a number of any kind, if it fits 64 bits. -/
def toInt64 : Value → Decoded Int
  | int .uint64 n =>
    if fitsSigned 64 n then .ok n else .error (.numeric (Text.ofInt n ++ " overflows int64"))
  | int .uint n =>
    if fitsSigned 64 n then .ok n else .error (.mismatch "integer" (int .uint n))
  | int _ n => .ok n
  | float64 bits => intOfDouble bits
  | float32 bits => intOfDouble (Binary.single.widen .double bits)
  | number t =>
    match t.toSigned? 64 with
    | some n => .ok n
    | none => .error (.numeric (t.quote ++ " is not an integer"))
  | v => .error (.mismatch "integer" v)

/-- The integer of a number of any kind, if it fits the width. -/
def toInt (width : Nat) (v : Value) : Decoded Int := do
  let n ← v.toInt64
  if fitsSigned width n then .ok n
  else .error (.numeric (Text.ofInt n ++ " overflows " ++ (IntKind.signed width).name))

/-! ## Other scalars -/

/-- A boolean. -/
def toBool : Value → Decoded Bool
  | bool b => .ok b
  | v => .error (.mismatch "bool" v)

/-- The wording of a refused floating point literal. -/
def floatFault (t : Text) (fault : FloatFault) : Text :=
  "strconv.ParseFloat: parsing " ++ t.quote ++ (match fault with
    | .form => ": invalid syntax"
    | .range => ": value out of range")

/-- The 64 bit floating point number nearest to a number of any kind. -/
def toFloat : Value → Decoded Nat
  | float64 bits => .ok bits
  | float32 bits => .ok (Binary.single.widen .double bits)
  | number t =>
    match t.toDouble with
    | .ok bits => .ok bits
    | .error fault => .error (.numeric (floatFault t fault))
  | int .uint n =>
    if fitsSigned 64 n then .ok (Binary.double.ofInt n)
    else .error (.mismatch "number" (int .uint n))
  | int _ n => .ok (Binary.double.ofInt n)
  | v => .error (.mismatch "number" v)

/-- A text. -/
def toText : Value → Decoded Text
  | text t => .ok t
  | v => .error (.mismatch "string" v)

/-- An integer of any size, from its decimal text. -/
def toBigint : Value → Decoded Int
  | text t =>
    match t.toInteger? with
    | some n => .ok n
    | none => .error (.numeric t.quote)
  | v => .error (.mismatch "integer string" v)

/-- A decimal, from its text. -/
def toDecimal : Value → Decoded Decimal
  | text t =>
    match Decimal.ofText? t with
    | some d => .ok d
    | none => .error (.numeric t.quote)
  | v => .error (.mismatch "decimal string" v)

/-- The byte a value of a byte sequence stands for. -/
def toByte? (v : Value) : Option UInt8 :=
  match v.toInt64 with
  | .ok n => if 0 ≤ n ∧ n ≤ 255 then some n.toNat.toUInt8 else none
  | .error _ => none

/-- The bytes of a sequence whose first element has the given position. -/
def toByteList : (pos : Nat) → List Value → Decoded (List UInt8)
  | _, [] => .ok []
  | pos, v :: vs =>
    match v.toByte? with
    | some b => do
      let bs ← toByteList (pos + 1) vs
      .ok (b :: bs)
    | none =>
      .error { failure := .malformedBytes, path := [Text.ofNat pos],
               detail := v.display ++ " is not a byte value" }

/-- A byte string, also from a sequence of numbers. -/
def toBytes : Value → Decoded (List UInt8)
  | bytes bs => .ok bs
  | list vs => toByteList 0 vs
  | v => .error (.mismatch "byte sequence" v)

/-! ## Mappings -/

/-- The entries of a mapping whose keys have to be texts. -/
def textEntries : List (Value × Value) → Decoded (List (Text × Value))
  | [] => .ok []
  | (text k, v) :: es => do
    let es ← textEntries es
    .ok ((k, v) :: es)
  | (k, _) :: _ => .error (.mismatch "string key" k)

/-- The entries of a mapping with text keys. -/
def toObject : Value → Decoded (List (Text × Value))
  | map es => .ok es
  | anyMap es => textEntries es
  | v => .error (.mismatch "object" v)

end Value

end WireModel
