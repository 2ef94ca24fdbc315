import WireModel.Text.Basic
import WireModel.Number.Binary

/-!
# The shortest decimal of a floating point number

The digits written for a number are the fewest that read back as the same pattern, and of those
the nearest to it. The reals that read back as `m * 2 ^ q` are an interval, whose ends belong to
it exactly when `m` is even. On a decimal grid, if any point lies in the interval then so does one
of the two neighbours of the number itself, so two points per grid are enough to look at.
-/

namespace WireModel

/-- A positive decimal `digits * 10 ^ scale`. -/
structure ShortDecimal where
  digits : Nat
  scale : Int
  deriving DecidableEq, Inhabited

namespace Binary

/-- Whether `d * 10 ^ k` is at most `num / den`, or below it if `strict`. -/
def gridLe (strict : Bool) (d : Nat) (k : Int) (num den : Nat) : Bool :=
  let l := d * tenPow k.toNat * den
  let r := num * tenPow (-k).toNat
  if strict then decide (l < r) else decide (l ≤ r)

/-- Whether `num / den` is at most `d * 10 ^ k`, or below it if `strict`. -/
def gridGe (strict : Bool) (d : Nat) (k : Int) (num den : Nat) : Bool :=
  let l := d * tenPow k.toNat * den
  let r := num * tenPow (-k).toNat
  if strict then decide (r < l) else decide (r ≤ l)

/-- The exponent of the largest power of ten that is at most `num / den`, both positive. The first
guess comes from the number of binary digits and is off by one at most. -/
def floorLog10 (num den : Nat) : Int :=
  let guess : Int := (floorLog2 num den) * 30103 / 100000
  if gridLe false 1 (guess + 1) num den then guess + 1
  else if gridLe false 1 guess num den then guess
  else guess - 1

variable (f : Binary)

/-- The lower end of the interval that reads back as `m * 2 ^ q`, as a ratio. Below a power of two
the numbers stand twice as close. -/
def lowerEnd (m : Nat) (q : Int) : Nat × Nat :=
  let (n, s) :=
    if m = twoPow f.fraction ∧ f.minScale < q then (4 * m - 1, q - 2) else (2 * m - 1, q - 1)
  (n * twoPow s.toNat, twoPow (-s).toNat)

/-- The upper end of the interval that reads back as `m * 2 ^ q`, as a ratio. -/
def upperEnd (m : Nat) (q : Int) : Nat × Nat :=
  let s := q - 1
  ((2 * m + 1) * twoPow s.toNat, twoPow (-s).toNat)

/-- Whether `d * 10 ^ k` reads back as `m * 2 ^ q`. -/
def readsBack (m : Nat) (q : Int) (d : Nat) (k : Int) : Bool :=
  let strict := m % 2 == 1
  let (ln, ld) := f.lowerEnd m q
  let (un, ud) := upperEnd m q
  gridGe strict d k ln ld && gridLe strict d k un ud

/-- The point of the grid `10 ^ k` that reads back as `m * 2 ^ q`, the nearer one of two. -/
def onGrid? (m : Nat) (q : Int) (k : Int) : Option Nat :=
  let num := m * twoPow q.toNat * tenPow (-k).toNat
  let den := twoPow (-q).toNat * tenPow k.toNat
  let d := num / den
  match f.readsBack m q d k, f.readsBack m q (d + 1) k with
  | true, true => some (roundDiv num den)
  | true, false => some d
  | false, true => some (d + 1)
  | false, false => none

/-- The first grid with a hit, from coarse to fine. -/
def searchGrids (m : Nat) (q : Int) (top : Int) : (tries : Nat) → ShortDecimal
  | 0 => ⟨m * twoPow q.toNat, 0⟩
  | n + 1 =>
    match f.onGrid? m q (top - (17 - n)) with
    | some d => ⟨d, top - (17 - n)⟩
    | none => searchGrids m q top n

/-- The shortest decimal that reads back as the positive number `m * 2 ^ q`. -/
def shortest (m : Nat) (q : Int) : ShortDecimal :=
  f.searchGrids m q (floorLog10 (m * twoPow q.toNat) (twoPow (-q).toNat)) 18

end Binary

namespace ShortDecimal

/-- The digits without trailing zeros, and the exponent of ten of the first digit. -/
def normal (d : ShortDecimal) : Text × Int :=
  let all := Text.ofNat d.digits
  let kept := (all.reverse.dropWhile (· == '0'.toUInt8)).reverse
  (kept, d.scale + all.length - 1)

end ShortDecimal

/-- Where a number is written with an exponent instead of in full. -/
structure FloatFormat where
  /-- The least exponent of ten written in full. -/
  least : Int
  /-- The first exponent of ten that is too large to be written in full. -/
  limit : Int

namespace FloatFormat

/-- Messages write numbers in full from 0.0001 up to 6 digits before the point. -/
def message : FloatFormat := ⟨-4, 6⟩

/-- Documents write numbers in full from 0.000001 up to 21 digits before the point. -/
def document : FloatFormat := ⟨-6, 21⟩

/-- Digits with a point after the first `whole` of them, filled up with zeros. -/
def positional (digits : Text) (exp : Int) : Text :=
  let zero := '0'.toUInt8
  if exp < 0 then "0." ++ List.replicate (-exp - 1).toNat zero ++ digits
  else
    let whole := exp.toNat + 1
    let int := digits.take whole ++ List.replicate (whole - digits.length) zero
    let frac := digits.drop whole
    if frac.isEmpty then int else int ++ "." ++ frac

/-- One digit before the point, and an exponent of two digits at least. -/
def scientific (digits : Text) (exp : Int) : Text :=
  let mantissa := if digits.length ≤ 1 then digits else digits.take 1 ++ "." ++ digits.drop 1
  let size := Text.ofNat exp.natAbs
  let size := if size.length < 2 then "0" ++ size else size
  mantissa ++ (if exp < 0 then "e-" else "e+") ++ size

/-- The text of a positive decimal. -/
def writeDecimal (w : FloatFormat) (d : ShortDecimal) : Text :=
  let (digits, exp) := d.normal
  if exp < w.least || w.limit ≤ exp then scientific digits exp else positional digits exp

/-- The text of a number that is neither infinite nor NaN. -/
def writeFinite (w : FloatFormat) (f : Binary) (neg : Bool) (m : Nat) (q : Int) : Text :=
  (if neg then "-" else "") ++ (if m = 0 then ("0" : Text) else w.writeDecimal (f.shortest m q))

end FloatFormat

/-- The text of a floating point number in a message. -/
def Binary.display (f : Binary) (bits : Nat) : Text :=
  match f.decode bits with
  | .finite neg m q => FloatFormat.message.writeFinite f neg m q
  | .infinite neg => if neg then "-Inf" else "+Inf"
  | .nan => "NaN"

end WireModel
