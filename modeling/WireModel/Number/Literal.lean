import WireModel.Text.Rune
import WireModel.Number.Binary

/-!
# Number literals

Reading the text of integers and floating point numbers. An integer is an optional sign and
decimal digits. A floating point literal is decimal or hexadecimal, may leave out the digits on
one side of the point, may separate digits by single underscores, and may be the name of an
infinity or of NaN in any case.
-/

namespace WireModel

/-! ## Integers -/

/-- An optional sign, and what follows it. -/
def Text.takeSign : Text → Bool × Text
  | [] => (false, [])
  | b :: bs =>
    if b == '-'.toUInt8 then (true, bs)
    else if b == '+'.toUInt8 then (false, bs)
    else (false, b :: bs)

/-- The integer a text writes: an optional sign and at least one decimal digit. -/
def Text.toInteger? (t : Text) : Option Int :=
  let (neg, digits) := t.takeSign
  if digits.isEmpty || !digits.all Text.isDigit then none
  else
    let n : Int := Text.digitsValue digits
    some (if neg then -n else n)

/-- Whether an integer fits the signed words of `width` bits. -/
def fitsSigned (width : Nat) (n : Int) : Bool :=
  decide (-(twoPow (width - 1) : Int) ≤ n) && decide (n < twoPow (width - 1))

/-- The integer a text writes, if it fits the signed words of `width` bits. -/
def Text.toSigned? (width : Nat) (t : Text) : Option Int :=
  t.toInteger?.filter (fitsSigned width)

/-! ## Floating point -/

/-- Why a floating point literal is refused. -/
inductive FloatFault where
  /-- The text is no literal. -/
  | form
  /-- The number is too large for the format. -/
  | range
  deriving DecidableEq, Inhabited

namespace FloatLiteral

/-- The parts of a literal: its digits as one number, how many of them follow the point, and the
exponent. The value is `digits * base ^ -places * scale ^ exponent`. -/
structure Parts where
  neg : Bool
  hex : Bool
  digits : Nat
  places : Nat
  exponent : Int

/-- The digits read so far. -/
structure Scan where
  digits : Nat := 0
  places : Nat := 0
  sawPoint : Bool := false
  sawDigit : Bool := false
  sawUnderscore : Bool := false

/-- The value of a digit in the base of the literal. -/
def digit? (hex : Bool) (b : UInt8) : Option Nat :=
  if hex then Text.hexValue? b else if Text.isDigit b then some (b.toNat - '0'.toNat) else none

/-- The digits at the start of a text, with underscores and one point among them. -/
def scanDigits (hex : Bool) : Scan → Text → Scan × Text
  | s, [] => (s, [])
  | s, b :: bs =>
    if b == '_'.toUInt8 then scanDigits hex { s with sawUnderscore := true } bs
    else if b == '.'.toUInt8 then
      if s.sawPoint then (s, b :: bs) else scanDigits hex { s with sawPoint := true } bs
    else
      match digit? hex b with
      | some d =>
        let digits := s.digits * (if hex then 16 else 10) + d
        let places := if s.sawPoint then s.places + 1 else s.places
        scanDigits hex { s with digits, places, sawDigit := true } bs
      | none => (s, b :: bs)

/-- The exponent digits at the start of a text. The value stops growing past four digits, where
every number is out of range anyway. -/
def scanExponent : (value : Nat) → (underscore : Bool) → Text → Nat × Bool × Text
  | e, u, [] => (e, u, [])
  | e, u, b :: bs =>
    if b == '_'.toUInt8 then scanExponent e true bs
    else if Text.isDigit b then
      scanExponent (if e < 10000 then e * 10 + (b.toNat - '0'.toNat) else e) u bs
    else (e, u, b :: bs)

/-- What stood before a byte, as far as underscores care. -/
inductive Neighbour where
  | start
  | digit
  | underscore
  | other
  deriving DecidableEq

/-- Whether every underscore stands between digits; a base mark counts as a digit. -/
def underscoresOk (hex : Bool) : Neighbour → Text → Bool
  | prev, [] => prev != .underscore
  | prev, b :: bs =>
    if (digit? hex b).isSome then underscoresOk hex .digit bs
    else if b == '_'.toUInt8 then prev == .digit && underscoresOk hex .underscore bs
    else prev != .underscore && underscoresOk hex .other bs

/-- The parts of a numeric literal, if the whole text is one. -/
def parts? (t : Text) : Option Parts := do
  let (neg, body) := t.takeSign
  let hex := match body with
    | z :: x :: _ :: _ => z == '0'.toUInt8 && Text.lowerByte x == 'x'.toUInt8
    | _ => false
  let (s, rest) := scanDigits hex {} (if hex then body.drop 2 else body)
  if !s.sawDigit then none
  let mark := if hex then 'p'.toUInt8 else 'e'.toUInt8
  let (exponent, underscore, rest) ← match rest with
    | [] => if hex then none else some ((0 : Int), false, [])
    | b :: bs =>
      if Text.lowerByte b != mark then none
      else
        let (eneg, digits) := Text.takeSign bs
        match digits with
        | d :: _ =>
          if !Text.isDigit d then none
          else
            let (e, u, rest) := scanExponent 0 false digits
            some (if eneg then -(e : Int) else e, u, rest)
        | [] => none
  if rest != [] then none
  let before := if hex then Neighbour.digit else .start
  if (s.sawUnderscore || underscore) &&
      !underscoresOk hex before (if hex then body.drop 2 else body) then none
  some { neg, hex, digits := s.digits, places := s.places, exponent }

/-- The pattern of an infinity or of NaN, if a text names one. -/
def named? (f : Binary) (t : Text) : Option Nat :=
  let word := t.map Text.lowerByte
  let (neg, name) := Text.takeSign word
  if name == "inf" || name == "infinity" then some (f.infinity neg)
  else if word == "nan" then some (f.infinity false + twoPow (f.fraction - 1) + 1)
  else none

/-- The pattern nearest to a literal's value, and `none` when it is too large. Decimal literals far
out of the range of the format are settled by their first digit's place alone. -/
def Parts.round? (f : Binary) (p : Parts) : Option Nat :=
  if p.hex then
    let s : Int := p.exponent - 4 * p.places
    f.ofRatio? p.neg (p.digits * twoPow s.toNat) (twoPow (-s).toNat)
  else
    let s : Int := p.exponent - p.places
    let top : Int := s + (Nat.toDigits 10 p.digits).length
    if p.digits = 0 ∨ top < -330 then some (f.signBits p.neg)
    else if 310 < top then none
    else f.ofRatio? p.neg (p.digits * tenPow s.toNat) (tenPow (-s).toNat)

end FloatLiteral

/-- The pattern of the 64 bit number a text writes. -/
def Text.toDouble (t : Text) : Except FloatFault Nat :=
  match FloatLiteral.named? .double t with
  | some bits => .ok bits
  | none =>
    match FloatLiteral.parts? t with
    | none => .error .form
    | some p =>
      match p.round? .double with
      | some bits => .ok bits
      | none => .error .range

end WireModel
