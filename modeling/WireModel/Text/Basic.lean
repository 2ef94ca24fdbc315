/-!
# Text — byte strings

Every name, path, document and message of the library is a `Text`, a list of bytes. A spec file
may hold any bytes, and names are compared, sorted and measured byte by byte, so nothing here
assumes that a text is valid UTF-8; reading characters out of a text is the business of
`WireModel.Text.Rune`.

A string literal stands for its UTF-8 bytes wherever a `Text` is expected.
-/

namespace WireModel

/-- A byte string. -/
abbrev Text := List UInt8

namespace Text

/-! ## Literals -/

/-- The UTF-8 bytes of a literal. -/
def ofString (s : String) : Text := s.toUTF8.data.toList

instance : Coe String Text := ⟨ofString⟩

/-- The text of a natural number in base ten. -/
def ofNat (n : Nat) : Text := (Nat.toDigits 10 n).map Char.toUInt8

/-- The text of an integer in base ten, with a sign only when it is negative. -/
def ofInt : Int → Text
  | .ofNat n => ofNat n
  | .negSucc n => '-'.toUInt8 :: ofNat (n + 1)

/-- The lower case hexadecimal digits of `n`, at least `width` of them. -/
def ofHex (width n : Nat) : Text :=
  let digits := (Nat.toDigits 16 n).map Char.toUInt8
  List.replicate (width - digits.length) '0'.toUInt8 ++ digits

/-! ## Order -/

/-- The byte-wise lexicographic order. -/
def le : Text → Text → Bool
  | [], _ => true
  | _ :: _, [] => false
  | a :: as, b :: bs => decide (a < b) || (a == b && le as bs)

/-- The texts of a list in byte-wise order. -/
def sort (ts : List Text) : List Text := ts.mergeSort le

/-- Entries in the byte-wise order of their keys. -/
def sortByKey {α : Type} (es : List (Text × α)) : List (Text × α) :=
  es.mergeSort fun a b => le a.1 b.1

/-! ## Entries -/

/-- What the first entry of a key holds. -/
def lookup? {α : Type} (key : Text) (es : List (Text × α)) : Option α :=
  (es.find? (·.1 == key)).map (·.2)

/-! ## Cutting and joining -/

/-- The texts in order, with `sep` between neighbours. -/
def join (sep : Text) : List Text → Text
  | [] => []
  | [t] => t
  | t :: ts => t ++ sep ++ join sep ts

/-- The parts of a text between the occurrences of a separating byte. There is always at least
one part. -/
def splitOn (sep : UInt8) : Text → List Text
  | [] => [[]]
  | b :: bs =>
    if b == sep then [] :: splitOn sep bs
    else
      match splitOn sep bs with
      | [] => [[b]]
      | part :: parts => (b :: part) :: parts

/-- The text before and after the first occurrence of a byte. -/
def cut? (sep : UInt8) : Text → Option (Text × Text)
  | [] => none
  | b :: bs => if b == sep then some ([], bs) else (cut? sep bs).map fun (l, r) => (b :: l, r)

/-- The text before and after the last occurrence of a byte. -/
def cutLast? (sep : UInt8) (t : Text) : Option (Text × Text) :=
  (cut? sep t.reverse).map fun (r, l) => (l.reverse, r.reverse)

/-- The rest of a text that starts with `head`. -/
def stripStart? (head : Text) (t : Text) : Option Text :=
  if head.isPrefixOf t then some (t.drop head.length) else none

/-- The rest of a text that ends with `tail`. -/
def stripEnd? (tail : Text) (t : Text) : Option Text :=
  if tail.isSuffixOf t then some (t.take (t.length - tail.length)) else none

/-- Whether `part` occurs in a text. -/
def hasPart (part : Text) : Text → Bool
  | [] => part.isEmpty
  | b :: bs => part.isPrefixOf (b :: bs) || hasPart part bs

/-- The text without the bytes of a class at both ends. -/
def trimBytes (p : UInt8 → Bool) (t : Text) : Text :=
  ((t.dropWhile p).reverse.dropWhile p).reverse

/-- `n` copies of a text. -/
def repeated (n : Nat) (t : Text) : Text := (List.replicate n t).flatten

/-- Every occurrence of `old` replaced, leftmost first, by `new`. An empty `old` occurs nowhere. -/
def replaceAll (old new : Text) (t : Text) : Text := go t.length t
where
  /-- One step per byte of the text at most. -/
  go : Nat → Text → Text
    | 0, t => t
    | _ + 1, [] => []
    | n + 1, b :: bs =>
      if !old.isEmpty && old.isPrefixOf (b :: bs) then new ++ go n ((b :: bs).drop old.length)
      else b :: go n bs

/-! ## Byte classes -/

/-- An ASCII digit. -/
def isDigit (b : UInt8) : Bool := '0'.toUInt8 ≤ b && b ≤ '9'.toUInt8

/-- An ASCII lower case letter. -/
def isLower (b : UInt8) : Bool := 'a'.toUInt8 ≤ b && b ≤ 'z'.toUInt8

/-- An ASCII upper case letter. -/
def isUpper (b : UInt8) : Bool := 'A'.toUInt8 ≤ b && b ≤ 'Z'.toUInt8

/-- An ASCII letter. -/
def isLetter (b : UInt8) : Bool := isLower b || isUpper b

/-- The lower case form of an ASCII letter; any other byte is kept. -/
def lowerByte (b : UInt8) : UInt8 := if isUpper b then b + 32 else b

/-- The value of a hexadecimal digit. -/
def hexValue? (b : UInt8) : Option Nat :=
  if isDigit b then some (b.toNat - '0'.toNat)
  else
    let l := lowerByte b
    if 'a'.toUInt8 ≤ l && l ≤ 'f'.toUInt8 then some (l.toNat - 'a'.toNat + 10) else none

/-- The number written by decimal digits, most significant first. Bytes that are no digits count
as written, so callers check them first. -/
def digitsValue (t : Text) : Nat := t.foldl (fun n b => 10 * n + (b.toNat - '0'.toNat)) 0

end Text

end WireModel
