import WireModel.Document.Basic
import WireModel.Number.Based

/-!
# Kinds of plain scalars

What a plain scalar is taken for, judged by its text alone: a null, a truth value, a whole number
in one of four bases, another number, a point in time, the mark of a merge, and a text if it is none
of these.
-/

namespace WireModel.Yaml

/-! ## Words -/

/-- The words for nothing. -/
def nullWords : List Text := List.map Text.ofString ["", "~", "null", "Null", "NULL"]

/-- The words for truth. -/
def trueWords : List Text := List.map Text.ofString ["true", "True", "TRUE"]

/-- The words for falsehood. -/
def falseWords : List Text := List.map Text.ofString ["false", "False", "FALSE"]

/-- The words for numbers that have no digits. -/
def numberWords : List Text :=
  List.map Text.ofString [".nan", ".NaN", ".NAN", ".inf", ".Inf", ".INF", "+.inf", "+.Inf", "+.INF",
    "-.inf", "-.Inf", "-.INF"]

/-- The word for what is merged into an object. -/
def mergeWord : Text := "<<"

/-! ## Numbers -/

/-- The whole number a text writes: 64 bits, with a sign or without. -/
def integer? (t : Text) : Option Int :=
  match t.toBased, t.toBasedNat with
  | .ok n, _ => some n
  | .error _, .ok n => some n
  | .error _, .error _ => none

/-- The whole number in base two or eight a text writes with a sign behind the mark of the base. -/
def signedDigits? (t : Text) : Option Int := do
  let (base, body) ← match Text.stripStart? "0b" t, Text.stripStart? "0o" t with
    | some body, _ => some (2, body)
    | none, some body => some (8, body)
    | none, none => none
  let (negative, ds) := Text.takeSign body
  if ds.isEmpty then none
  else
    let n ← (Text.scanBase base 0 ds).toOption
    if n < twoPow 63 || (negative && n == twoPow 63) then
      some (if negative then -(n : Int) else n)
    else none

/-- The digits a text starts with, and the rest. -/
def splitDigits (t : Text) : Text × Text := (t.takeWhile Text.isDigit, t.dropWhile Text.isDigit)

/-- Whether a text is an exponent or empty. -/
def isExponent : Text → Bool
  | [] => true
  | e :: t =>
    let (ds, rest) := splitDigits (Text.takeSign t).2
    (e == 'e'.toUInt8 || e == 'E'.toUInt8) && !ds.isEmpty && rest.isEmpty

/-- Whether a text has the form of a decimal number: digits with a point in, before or after them,
and an exponent. -/
def isDecimal (t : Text) : Bool :=
  let (whole, rest) := splitDigits (Text.takeSign t).2
  match rest with
  | p :: rest' =>
    if p == '.'.toUInt8 then
      let (places, rest) := splitDigits rest'
      !(whole.isEmpty && places.isEmpty) && isExponent rest
    else !whole.isEmpty && isExponent rest
  | [] => !whole.isEmpty

/-- Whether a text reads as a floating point number in range. -/
def isDouble (t : Text) : Bool := t.toDouble matches .ok _

/-! ## Points in time -/

/-- A number of one or two digits within bounds, and the rest. -/
def shortNumber? (low high : Nat) (t : Text) : Option (Nat × Text) :=
  let ds := (t.take 2).takeWhile Text.isDigit
  let n := Text.digitsValue ds
  if ds.isEmpty || n < low || high < n then none else some (n, t.drop ds.length)

/-- The rest of a text after a byte. -/
def after? (b : UInt8) : Text → Option Text
  | [] => none
  | x :: t => if x == b then some t else none

/-- The days of a month. -/
def daysIn (year month : Nat) : Nat :=
  let leap := year % 4 == 0 && (year % 100 != 0 || year % 400 == 0)
  if month == 2 then (if leap then 29 else 28)
  else if month == 4 || month == 6 || month == 9 || month == 11 then 30
  else 31

/-- The rest of a text after a date: a year of four digits, a month and a day. -/
def date? (t : Text) : Option Text := do
  let (year, rest) := splitDigits t
  if year.length != 4 then none
  else
    let (month, rest) ← after? '-'.toUInt8 rest >>= shortNumber? 1 12
    let (_, rest) ← after? '-'.toUInt8 rest >>=
      shortNumber? 1 (daysIn (Text.digitsValue year) month)
    some rest

/-- The rest of a text after a time of day, with or without a fraction of a second. -/
def time? (t : Text) : Option Text := do
  let (_, rest) ← shortNumber? 0 23 t
  let (_, rest) ← after? ':'.toUInt8 rest >>= shortNumber? 0 59
  let (_, rest) ← after? ':'.toUInt8 rest >>= shortNumber? 0 59
  match rest with
  | p :: d :: _ =>
    if (p == '.'.toUInt8 || p == ','.toUInt8) && Text.isDigit d then
      some (splitDigits (rest.drop 1)).2
    else some rest
  | _ => some rest

/-- Whether a text is a time zone: `Z` or the distance from it. -/
def isZone (t : Text) : Bool :=
  match t with
  | [z] => z == 'Z'.toUInt8
  | [s, a, b, c, d, e] =>
    (s == '+'.toUInt8 || s == '-'.toUInt8) && [a, b, d, e].all Text.isDigit && c == ':'.toUInt8 &&
      decide (Text.digitsValue [a, b] ≤ 24) && decide (Text.digitsValue [d, e] ≤ 60)
  | _ => false

/-- Whether a text is a point in time: a date, a date and a time with a zone, or both with a space
between them and no zone. -/
def isTimestamp (t : Text) : Bool :=
  match date? t with
  | none => false
  | some [] => true
  | some (b :: rest) =>
    match time? rest with
    | none => false
    | some zone =>
      if b == 'T'.toUInt8 || b == 't'.toUInt8 then isZone zone
      else b == ' '.toUInt8 && zone.isEmpty

/-! ## Kinds -/

/-- The kind of a scalar that starts like a number. Underscores between digits do not count. -/
def numericKind (t : Text) : ScalarKind :=
  let digits := t.filter (· != '_'.toUInt8)
  if isTimestamp t then .timestamp
  else
    match integer? digits with
    | some n => .int n
    | none =>
      if isDecimal digits && isDouble digits then .float
      else
        match signedDigits? digits with
        | some n => .int n
        | none => .text

/-- The kind of a plain scalar. -/
def kindOf (t : Text) : ScalarKind :=
  if nullWords.contains t then .null
  else if trueWords.contains t then .bool true
  else if falseWords.contains t then .bool false
  else if numberWords.contains t then .float
  else if t == mergeWord then .merge
  else
    match t with
    | [] => .null
    | b :: _ =>
      if Text.isDigit b || b == '+'.toUInt8 || b == '-'.toUInt8 then numericKind t
      else if b == '.'.toUInt8 && isDouble t then .float
      else .text

end WireModel.Yaml
