import WireModel.Number.Literal

/-!
# Decimal numbers

Decimals of any size, as a coefficient and a power of ten. Reading one keeps the digits as
written; printing is in full, without trailing zeros after the point.
-/

namespace WireModel

/-- The number `coefficient * 10 ^ scale`. -/
structure Decimal where
  coefficient : Int
  scale : Int
  deriving DecidableEq, Inhabited

namespace Decimal

/-- The text split before and after its exponent mark, if it has one. -/
def cutExponent (t : Text) : Text × Option Text :=
  let isMark (b : UInt8) : Bool := b == 'e'.toUInt8 || b == 'E'.toUInt8
  let mantissa := t.takeWhile fun b => !isMark b
  match t.drop mantissa.length with
  | [] => (mantissa, none)
  | _ :: exp => (mantissa, some exp)

/-- The decimal a text writes: digits with an optional sign, at most one point anywhere among
them, and an optional exponent. The scale has to fit 32 bits. -/
def ofText? (t : Text) : Option Decimal := do
  let (mantissa, exp) := cutExponent t
  let exp ← match exp with
    | none => some 0
    | some e => Text.toSigned? 32 e
  let (digits, places) := match Text.cut? '.'.toUInt8 mantissa with
    | none => (mantissa, 0)
    | some (whole, frac) => (whole ++ frac, frac.length)
  let coefficient ← Text.toInteger? digits
  let scale : Int := exp - places
  if fitsSigned 32 scale then some { coefficient, scale } else none

/-- The text of a decimal, in full. -/
def toText (d : Decimal) : Text :=
  if 0 ≤ d.scale then Text.ofInt (d.coefficient * tenPow d.scale.toNat)
  else
    let places := (-d.scale).toNat
    let digits := Text.ofNat d.coefficient.natAbs
    let digits := List.replicate (places + 1 - digits.length) '0'.toUInt8 ++ digits
    let whole := digits.take (digits.length - places)
    let tail : Text := digits.drop (digits.length - places)
    let frac : Text := (tail.reverse.dropWhile (· == '0'.toUInt8)).reverse
    let sign : Text := if d.coefficient < 0 then "-" else ""
    sign ++ whole ++ (if frac.isEmpty then frac else "." ++ frac)

end Decimal

end WireModel
