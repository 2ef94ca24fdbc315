import WireModel.Document.Json
import WireModel.Number.Power
import WireModel.Value.Json

/-!
# Evaluated CUE

CUE is read as far as it is JSON. What CUE makes of JSON text differs from the text in little: a key
may come twice if both values go together, and the outcome is written without blanks and with
numbers in a normal form.
-/

namespace WireModel.Cue

/-! ## Numbers -/

/-- A number without a sign: digits and the power of ten they are multiplied by. -/
structure Number where
  digits : Text
  exponent : Int

/-- The greatest exponent, with either sign. -/
def maxExponent : Nat := 100000

namespace Number

/-- The number a text writes, if its exponents are small enough. -/
def ofText? (t : Text) : Option Number :=
  let lower : Text := t.map Text.lowerByte
  let (mantissa, power) := (lower.cut? 'e'.toUInt8).getD (lower, "0")
  let (whole, places) := (Text.cut? '.'.toUInt8 mantissa).getD (mantissa, [])
  if whole.isEmpty || !whole.all Text.isDigit || !places.all Text.isDigit then none
  else do
    let power ← Text.toInteger? power
    let digits := ((whole ++ places).dropWhile (· == '0'.toUInt8))
    let n : Number := ⟨if digits.isEmpty then "0" else digits, power - places.length⟩
    let isFar (x : Int) : Bool := decide (maxExponent < x.natAbs)
    if isFar power || isFar n.exponent || isFar (n.exponent + n.digits.length - 1) then none
    else some n

/-- Whether a number is zero. -/
def isZero (n : Number) : Bool := n.digits == "0"

/-- Digits without the zeros at their end, and how many there were. -/
def trim (n : Number) : Number :=
  let kept := (n.digits.reverse.dropWhile (· == '0'.toUInt8)).reverse
  if n.isZero then ⟨n.digits, 0⟩ else ⟨kept, n.exponent + (n.digits.length - kept.length : Nat)⟩

/-- A zero with more places than this is written with an exponent. -/
def maxZeroPlaces : Int := 2000

/-- A number in its normal form: positional if no digits are missing before the point and it is not
too small, and with one digit before the point and an exponent otherwise. -/
def text (n : Number) : Text :=
  let order := n.exponent + n.digits.length - 1
  if n.exponent == 0 then n.digits
  else if n.exponent < 0 ∧ (-6 ≤ order ∨ (n.isZero ∧ -maxZeroPlaces ≤ n.exponent)) then
    let missing := (-n.exponent).toNat + 1 - n.digits.length
    let padded : Text := List.replicate missing '0'.toUInt8 ++ n.digits
    let whole := padded.length - (-n.exponent).toNat
    padded.take whole ++ "." ++ padded.drop whole
  else
    let places : Text := if n.digits.length == 1 then [] else "." ++ n.digits.drop 1
    let sign : Text := if order < 0 then "-" else "+"
    n.digits.take 1 ++ places ++ ("E" : Text) ++ sign ++ Text.ofNat order.natAbs

end Number

/-- The sign of a number, and the rest of its text. -/
def splitSign (t : Text) : Text × Text :=
  match Text.stripStart? "-" t with
  | some body => ("-", body)
  | none => ([], t)

/-- Whether a number is written like a whole one. -/
def isWhole (t : Text) : Bool :=
  !t.any fun b => b == '.'.toUInt8 || Text.lowerByte b == 'e'.toUInt8

/-- What a number is taken for. Numbers do not start with a zero before a digit. -/
def numberKind? (t : Text) : Option ScalarKind :=
  let (sign, body) := splitSign t
  let leads := match body with
    | z :: d :: _ => z == '0'.toUInt8 && Text.isDigit d
    | _ => false
  if leads then none
  else
    (Number.ofText? body).map fun _ =>
      if isWhole t then .int (if sign.isEmpty then Text.digitsValue body else -Text.digitsValue body)
      else .float

/-- A number in its normal form. A zero has no sign. -/
def numberText (t : Text) : Text :=
  let (sign, body) := splitSign t
  match Number.ofText? body with
  | some n => if n.isZero then n.text else sign ++ n.text
  | none => t

/-- Whether two numbers that are not whole are the same. -/
def sameNumber (a b : Text) : Bool :=
  let (signA, bodyA) := splitSign a
  let (signB, bodyB) := splitSign b
  match (Number.ofText? bodyA).map Number.trim, (Number.ofText? bodyB).map Number.trim with
  | some m, some n =>
    m.digits == n.digits && m.exponent == n.exponent && (m.isZero || signA == signB)
  | _, _ => false

/-! ## Reading -/

/-- How the scalars are read: strings stay on their line, surrogates come in pairs, and words are
complete. -/
def dialect : Json.Dialect where
  strings :=
    { hexOnly := true
      pairsOnly := true
      isPlain := fun b => b != 0 && b != '\n'.toUInt8 && b != '\r'.toUInt8 }
  number? := numberKind?
  word? := Json.strictWord?

/-- The mark of byte order. -/
def byteOrderMark : Text := Text.ofRune 0xFEFF

/-- The document a text holds. It has no stray bytes, and no mark of byte order but in front. -/
def document? (t : Text) : Option Doc :=
  let t := (Text.stripStart? byteOrderMark t).getD t
  let isGood : Rune → Bool
    | .code c => c != 0xFEFF
    | .stray _ => false
  if !t.runes.all isGood then none
  else
    match dialect.start? t with
    | some (d, rest) => if rest.all Json.isSpace then some d else none
    | none => none

/-! ## Going together -/

mutual

/-- What two documents have in common, if they go together: objects with all their keys, lists item by
item, and the same scalars. -/
def unify? : Doc → Doc → Option Doc
  | .scalar (.int m) s l, .scalar (.int n) _ _ => if m == n then some (.scalar (.int m) s l) else none
  | .scalar .float s l, .scalar .float t _ => if sameNumber s t then some (.scalar .float s l) else none
  | .scalar k s l, .scalar k' t _ => if k == k' && s == t then some (.scalar k s l) else none
  | .list xs l, .list ys _ => (unifyItems? xs ys).map fun zs => .list zs l
  | .object es l, .object fs _ => (unifyEntries? es fs).map fun gs => .object gs l
  | _, _ => none

/-- What the items of two lists have in common. -/
def unifyItems? : List Doc → List Doc → Option (List Doc)
  | [], [] => some []
  | x :: xs, y :: ys => do
    let z ← unify? x y
    let zs ← unifyItems? xs ys
    pure (z :: zs)
  | _, _ => none

/-- Entries, with more of them one after the other. -/
def unifyEntries? : List (Doc × Doc) → List (Doc × Doc) → Option (List (Doc × Doc))
  | es, [] => some es
  | es, (k, v) :: fs =>
    match es.find? fun e => Doc.sameKey e.1 k with
    | none => unifyEntries? (es ++ [(k, v)]) fs
    | some (_, w) => do
      let x ← unify? w v
      unifyEntries? (es.map fun e => if Doc.sameKey e.1 k then (e.1, x) else e) fs

end

mutual

/-- A document in which no key comes twice. -/
def settle? : Doc → Option Doc
  | .scalar k s l => some (.scalar k s l)
  | .list xs l => (settleItems? xs).map fun ys => .list ys l
  | .object es l => do
    let es ← settleEntries? es
    (unifyEntries? [] es).map fun es => .object es l

/-- Documents in which no key comes twice. -/
def settleItems? : List Doc → Option (List Doc)
  | [] => some []
  | x :: xs => do
    let y ← settle? x
    let ys ← settleItems? xs
    pure (y :: ys)

/-- Entries in whose values no key comes twice. -/
def settleEntries? : List (Doc × Doc) → Option (List (Doc × Doc))
  | [] => some []
  | (k, v) :: es => do
    let w ← settle? v
    let fs ← settleEntries? es
    pure ((k, w) :: fs)

end

/-! ## Writing -/

mutual

/-- What is made of a document. -/
def write : Doc → Text
  | .scalar .text s _ => Json.writeText s
  | .scalar (.int _) s _ | .scalar .float s _ => numberText s
  | .scalar _ s _ => s
  | .list xs _ => "[" ++ Text.join "," (writeItems xs) ++ "]"
  | .object es _ => "\x7b" ++ Text.join "," (writeEntries es) ++ "\x7d"

/-- What is made of the items of a list. -/
def writeItems : List Doc → List Text
  | [] => []
  | x :: xs => write x :: writeItems xs

/-- What is made of the entries of an object. -/
def writeEntries : List (Doc × Doc) → List Text
  | [] => []
  | (k, v) :: es => (Json.writeText k.keyText ++ ":" ++ write v) :: writeEntries es

end

/-- The JSON text that comes out of a text. A text of blanks is an empty object. -/
def evaluate? (t : Text) : Option Text :=
  if t.isBlank then some "\x7b\x7d" else (document? t >>= settle?).map write

end WireModel.Cue
