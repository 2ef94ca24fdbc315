import WireModel.Number.Literal

/-!
# Whole numbers in several bases

A whole number may be written in base sixteen, eight or two after `0x`, `0o` or `0b`, and in base
eight after a mere zero. Underscores may stand between its digits.
-/

namespace WireModel

/-- Why a text is no whole number. -/
inductive IntFault where
  | badForm
  | outOfRange
  deriving DecidableEq, Inhabited

namespace IntFault

/-- The wording of a fault. -/
def reason : IntFault → Text
  | badForm => "invalid syntax"
  | outOfRange => "value out of range"

end IntFault

namespace Text

/-- The base of a number without its sign, and its digits. -/
def splitBase (t : Text) : Nat × Text :=
  match t with
  | z :: m :: d :: ds =>
    if z != '0'.toUInt8 then (10, t)
    else
      let mark := lowerByte m
      if mark == 'x'.toUInt8 then (16, d :: ds)
      else if mark == 'o'.toUInt8 then (8, d :: ds)
      else if mark == 'b'.toUInt8 then (2, d :: ds)
      else (8, m :: d :: ds)
  | [z, m] => if z == '0'.toUInt8 then (8, [m]) else (10, t)
  | _ => (10, t)

/-- The number with the given digits after a number, if it fits 64 bits. Underscores are passed
over. -/
def scanBase (base : Nat) : Nat → Text → Except IntFault Nat
  | n, [] => .ok n
  | n, b :: bs =>
    if b == '_'.toUInt8 then scanBase base n bs
    else
      match hexValue? b with
      | none => .error .badForm
      | some d =>
        if base ≤ d then .error .badForm
        else if twoPow 64 ≤ base * n + d then .error .outOfRange
        else scanBase base (base * n + d) bs

/-- Whether the underscores of a number without its sign stand between digits. -/
def hasGoodUnderscores (t : Text) : Bool :=
  match t with
  | z :: m :: ds =>
    let mark := lowerByte m
    let hex := mark == 'x'.toUInt8
    if z == '0'.toUInt8 && (hex || mark == 'o'.toUInt8 || mark == 'b'.toUInt8) then
      FloatLiteral.underscoresOk hex .digit ds
    else FloatLiteral.underscoresOk false .start t
  | t => FloatLiteral.underscoresOk false .start t

/-- The whole number without a sign a text writes, if it fits 64 bits. -/
def toBasedNat (t : Text) : Except IntFault Nat := do
  if t.isEmpty then .error .badForm
  else
    let (base, ds) := splitBase t
    let n ← scanBase base 0 ds
    if hasGoodUnderscores t then .ok n else .error .badForm

/-- The whole number a text writes, if it fits 64 bits with a sign. -/
def toBased (t : Text) : Except IntFault Int := do
  let (negative, body) := takeSign t
  let n ← toBasedNat body
  if n < twoPow 63 || (negative && n == twoPow 63) then .ok (if negative then -(n : Int) else n)
  else .error .outOfRange

end Text

end WireModel
