import WireModel.Number.Power

/-!
# Binary floating point

A floating point number is carried as its bit pattern, and every operation on it is exact
arithmetic on naturals: a finite pattern stands for `m * 2 ^ q`, and a ratio is rounded to the
nearest such number, a half to the even neighbour. Nothing depends on the machine's own floats.
-/

namespace WireModel

/-- An interchange format, by the sizes of its two fields. -/
structure Binary where
  /-- Bits of the fraction field. -/
  fraction : Nat
  /-- Bits of the exponent field. -/
  exponent : Nat

/-- What a bit pattern stands for. -/
inductive BinaryValue where
  /-- `m * 2 ^ q`, negated if `neg`. A zero keeps its sign. -/
  | finite (neg : Bool) (m : Nat) (q : Int)
  | infinite (neg : Bool)
  | nan
  deriving DecidableEq, Inhabited

namespace Binary

/-- The 64 bit format. -/
def double : Binary := ⟨52, 11⟩

/-- The 32 bit format. -/
def single : Binary := ⟨23, 8⟩

variable (f : Binary)

/-- The exponent of the unit in the last place of the smallest numbers. -/
def minScale : Int := 2 - twoPow (f.exponent - 1) - f.fraction

/-- The largest value of the exponent field, which marks infinities and NaN. -/
def special : Nat := twoPow f.exponent - 1

/-- The weight of the sign bit. -/
def signWeight : Nat := twoPow (f.fraction + f.exponent)

/-- The value of a bit pattern. -/
def decode (bits : Nat) : BinaryValue :=
  let frac := bits % twoPow f.fraction
  let exp := bits / twoPow f.fraction % twoPow f.exponent
  let neg := bits / f.signWeight % 2 == 1
  if exp = f.special then
    if frac = 0 then .infinite neg else .nan
  else if exp = 0 then .finite neg frac f.minScale
  else .finite neg (twoPow f.fraction + frac) (f.minScale + (exp - 1))

/-- The sign bit of a pattern. -/
def signBits (neg : Bool) : Nat := if neg then f.signWeight else 0

/-- A number that grows with the value of a pattern, the same for both zeros. A pattern that is no
number comes first. -/
def rank (bits : Nat) : Int :=
  match f.decode bits with
  | .nan => -(2 * f.signWeight)
  | _ => if f.signWeight ≤ bits then -((bits - f.signWeight : Nat) : Int) else bits

/-- The pattern of an infinity. -/
def infinity (neg : Bool) : Nat := f.signBits neg + f.special * twoPow f.fraction

/-- A quotient rounded to the nearest natural, a half to the even one. -/
def roundDiv (num den : Nat) : Nat :=
  let d := num / den
  let r := num % den
  if 2 * r < den then d else if den < 2 * r then d + 1 else d + d % 2

/-- The exponent of the largest power of two that is at most `num / den`, both positive. -/
def floorLog2 (num den : Nat) : Int :=
  let e : Int := (num.log2 : Int) - den.log2
  if num * twoPow (-e).toNat < den * twoPow e.toNat then e - 1 else e

/-- The pattern nearest to `num / den`, negated if `neg`; `none` when it is too large for the
format. A rounding that reaches the next power of two carries into the exponent field, which is
the pattern of that power. -/
def ofRatio? (neg : Bool) (num den : Nat) : Option Nat :=
  if num = 0 then some (f.signBits neg)
  else
    let q := max f.minScale (floorLog2 num den - f.fraction)
    let m := roundDiv (num * twoPow (-q).toNat) (den * twoPow q.toNat)
    let bits := (q - f.minScale).toNat * twoPow f.fraction + m
    if f.special * twoPow f.fraction ≤ bits then none else some (f.signBits neg + bits)

/-- The pattern nearest to an integer that is not too large for the format. -/
def ofInt (n : Int) : Nat := (f.ofRatio? (n < 0) n.natAbs 1).getD (f.infinity (n < 0))

/-- The pattern of `g` with the value of a pattern of `f`, for a wider `g`. A NaN keeps the
leading bits of its fraction and becomes quiet. -/
def widen (g : Binary) (bits : Nat) : Nat :=
  match f.decode bits with
  | .finite neg m q => (g.ofRatio? neg (m * twoPow q.toNat) (twoPow (-q).toNat)).getD (g.infinity neg)
  | .infinite neg => g.infinity neg
  | .nan =>
    let frac := bits % twoPow f.fraction * twoPow (g.fraction - f.fraction)
    let quiet := twoPow (g.fraction - 1)
    g.infinity (bits / f.signWeight % 2 == 1) + (if frac / quiet % 2 = 1 then frac else frac + quiet)

end Binary

namespace BinaryValue

/-- The value as an integer, if it is one. -/
def toInt? : BinaryValue → Option Int
  | finite neg m q =>
    let scaled : Option Nat :=
      if 0 ≤ q then some (m * twoPow q.toNat)
      else if m % twoPow (-q).toNat = 0 then some (m / twoPow (-q).toNat)
      else none
    scaled.map fun n => if neg then -(n : Int) else n
  | _ => none

end BinaryValue

end WireModel
