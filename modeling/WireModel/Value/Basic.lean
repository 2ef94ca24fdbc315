import WireModel.Text.Rune
import WireModel.Number.Shortest

/-!
# Structured values

What serializers produce and deserializers accept, before any byte format: null, booleans,
numbers, texts, byte strings, lists and mappings. A number remembers in which machine kind it
came, because byte formats deliver the same number in different kinds; decoding looks at its
value only.

A mapping keeps its entries in a list. Producers list every key once and in byte-wise order;
looking up a key finds the first entry.
-/

namespace WireModel

/-- The machine kinds of integers. -/
inductive IntKind where
  | int
  | int8
  | int16
  | int32
  | int64
  | uint
  | uint8
  | uint16
  | uint32
  | uint64
  deriving DecidableEq, Inhabited

namespace IntKind

/-- The name of the kind, as messages show it. -/
def name : IntKind → Text
  | int => "int"
  | int8 => "int8"
  | int16 => "int16"
  | int32 => "int32"
  | int64 => "int64"
  | uint => "uint"
  | uint8 => "uint8"
  | uint16 => "uint16"
  | uint32 => "uint32"
  | uint64 => "uint64"

/-- The signed kind of a width; every width but 8, 16 and 32 is held in 64 bits. -/
def signed : Nat → IntKind
  | 8 => int8
  | 16 => int16
  | 32 => int32
  | _ => int64

end IntKind

/-- A structured value. -/
inductive Value where
  | null
  | bool (b : Bool)
  /-- An integer of a machine kind. -/
  | int (kind : IntKind) (n : Int)
  /-- A 64 bit floating point number, by its pattern. -/
  | float64 (bits : Nat)
  /-- A 32 bit floating point number, by its pattern. -/
  | float32 (bits : Nat)
  /-- A number kept as it was written. -/
  | number (t : Text)
  | text (t : Text)
  | bytes (bs : List UInt8)
  | list (vs : List Value)
  /-- A mapping with text keys. -/
  | map (es : List (Text × Value))
  /-- A mapping whose keys may be anything. -/
  | anyMap (es : List (Value × Value))
  deriving Inhabited

namespace Value

/-- What messages call the kind of a value. -/
def kindName : Value → Text
  | null => "null"
  | bool _ => "bool"
  | int k _ => k.name
  | float64 _ => "float64"
  | float32 _ => "float32"
  | number _ => "json.Number"
  | text _ => "string"
  | bytes _ => "[]uint8"
  | list _ => "[]interface \x7b\x7d"
  | map _ => "map[string]interface \x7b\x7d"
  | anyMap _ => "map[interface \x7b\x7d]interface \x7b\x7d"

/-! ## Keys -/

/-- The place of a key among keys of other kinds: nothing comes first, then the kinds in the order of
their names, and last a number that is kept as it was written. -/
def keyKind : Value → Nat × Text
  | null => (0, [])
  | number _ => (2, [])
  | v => (1, v.kindName)

/-- The place of a key among numbers. -/
def keyNumber : Value → Int
  | bool b => if b then 1 else 0
  | int _ n => n
  | float64 bits => Binary.double.rank bits
  | float32 bits => Binary.single.rank bits
  | _ => 0

/-- The place of a key among texts. -/
def keyText : Value → Text
  | number t => t
  | text t => t
  | _ => []

/-- Whether a key is not behind another one: numbers go by value and texts go byte-wise. -/
def keyLe (a b : Value) : Bool :=
  if a.keyKind == b.keyKind then
    a.keyNumber < b.keyNumber || (a.keyNumber == b.keyNumber && Text.le a.keyText b.keyText)
  else a.keyKind.1 < b.keyKind.1 ||
    (a.keyKind.1 == b.keyKind.1 && Text.le a.keyKind.2 b.keyKind.2)

/-- Entries in the order of their keys. -/
def sortByKey {α : Type} (es : List (Value × α)) : List (Value × α) :=
  es.mergeSort fun a b => keyLe a.1 b.1

mutual

/-- The value as messages show it. -/
def display : Value → Text
  | null => "<nil>"
  | bool b => if b then "true" else "false"
  | int _ n => Text.ofInt n
  | float64 bits => Binary.double.display bits
  | float32 bits => Binary.single.display bits
  | number t => t
  | text t => t
  | bytes bs => "[" ++ Text.join " " (bs.map fun b => Text.ofNat b.toNat) ++ "]"
  | list vs => "[" ++ Text.join " " (showList vs) ++ "]"
  | map es =>
    "map[" ++ Text.join " " ((Text.sortByKey (showEntries es)).map fun e => e.1 ++ ":" ++ e.2) ++ "]"
  | anyMap es =>
    "map[" ++
      Text.join " " ((sortByKey (showPairs es)).map fun e => e.2.1 ++ ":" ++ e.2.2) ++ "]"

/-- The elements of a list as messages show them. -/
def showList : List Value → List Text
  | [] => []
  | v :: vs => v.display :: showList vs

/-- The entries of a mapping as messages show them. -/
def showEntries : List (Text × Value) → List (Text × Text)
  | [] => []
  | (k, v) :: es => (k, v.display) :: showEntries es

/-- The entries of a mapping with arbitrary keys, and as messages show them. -/
def showPairs : List (Value × Value) → List (Value × Text × Text)
  | [] => []
  | (k, v) :: es => (k, k.display, v.display) :: showPairs es

end

mutual

/-- How deep lists and mappings are nested in a value; a scalar has height zero. -/
def height : Value → Nat
  | list vs => heightList vs + 1
  | map es => heightEntries es + 1
  | anyMap es => heightPairs es + 1
  | _ => 0

/-- The greatest height among values. -/
def heightList : List Value → Nat
  | [] => 0
  | v :: vs => max v.height (heightList vs)

/-- The greatest height among the values of entries. -/
def heightEntries : List (Text × Value) → Nat
  | [] => 0
  | (_, v) :: es => max v.height (heightEntries es)

/-- The greatest height among the values of entries with arbitrary keys. -/
def heightPairs : List (Value × Value) → Nat
  | [] => 0
  | (_, v) :: es => max v.height (heightPairs es)

end

end Value

end WireModel
