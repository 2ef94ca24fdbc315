import WireModel.Value.Json

/-!
# Structured values as MessagePack

Every integer of a sized kind is written in its own width, the others as small as possible. A
scalar that is read on its own comes back in the kind it was written in; inside lists and mappings
all integers come back in the widest kind of their sign, all floating point numbers in 64 bits,
and byte strings as texts.
-/

namespace WireModel.MessagePack

/-! ## Writing -/

/-- The lowest `size` bytes of a number, most significant first. -/
def bigEndian (size n : Nat) : List UInt8 :=
  (List.range size).map fun i => (n / twoPow (8 * (size - 1 - i))).toUInt8

/-- A number as two's complement of `size` bytes. -/
def wrapped (size : Nat) (n : Int) : List UInt8 := bigEndian size (n % (twoPow (8 * size) : Int)).toNat

/-- A code and what follows it. -/
def coded (code : UInt8) (payload : List UInt8) : List UInt8 := code :: payload

/-- A number that is not negative, as small as possible. -/
def writeNat (n : Nat) : List UInt8 :=
  if n < 0x80 then [n.toUInt8]
  else if n < 256 then coded 0xCC (bigEndian 1 n)
  else if n < 0x10000 then coded 0xCD (bigEndian 2 n)
  else if n < 0x100000000 then coded 0xCE (bigEndian 4 n)
  else coded 0xCF (bigEndian 8 n)

/-- A number as small as possible. -/
def writeSmall (n : Int) : List UInt8 :=
  if 0 ≤ n then writeNat n.toNat
  else if -32 ≤ n then wrapped 1 n
  else if -128 ≤ n then coded 0xD0 (wrapped 1 n)
  else if -32768 ≤ n then coded 0xD1 (wrapped 2 n)
  else if -2147483648 ≤ n then coded 0xD2 (wrapped 4 n)
  else coded 0xD3 (wrapped 8 n)

/-- An integer of a kind. -/
def writeInt (kind : IntKind) (n : Int) : List UInt8 :=
  match kind with
  | .int | .uint => writeSmall n
  | .uint8 => coded 0xCC (wrapped 1 n)
  | .uint16 => coded 0xCD (wrapped 2 n)
  | .uint32 => coded 0xCE (wrapped 4 n)
  | .uint64 => coded 0xCF (wrapped 8 n)
  | .int8 => coded 0xD0 (wrapped 1 n)
  | .int16 => coded 0xD1 (wrapped 2 n)
  | .int32 => coded 0xD2 (wrapped 4 n)
  | .int64 => coded 0xD3 (wrapped 8 n)

/-- A text with its length. -/
def writeText (t : Text) : List UInt8 :=
  let n := t.length
  (if n < 32 then [(0xA0 + n).toUInt8]
    else if n < 256 then coded 0xD9 (bigEndian 1 n)
    else if n < 0x10000 then coded 0xDA (bigEndian 2 n)
    else coded 0xDB (bigEndian 4 n)) ++ t

/-- A byte string with its length. -/
def writeBytes (bs : List UInt8) : List UInt8 :=
  let n := bs.length
  (if n < 256 then coded 0xC4 (bigEndian 1 n)
    else if n < 0x10000 then coded 0xC5 (bigEndian 2 n)
    else coded 0xC6 (bigEndian 4 n)) ++ bs

/-- The head of a list. -/
def listHead (n : Nat) : List UInt8 :=
  if n < 16 then [(0x90 + n).toUInt8]
  else if n < 0x10000 then coded 0xDC (bigEndian 2 n)
  else coded 0xDD (bigEndian 4 n)

/-- The head of a mapping. -/
def mapHead (n : Nat) : List UInt8 :=
  if n < 16 then [(0x80 + n).toUInt8]
  else if n < 0x10000 then coded 0xDE (bigEndian 2 n)
  else coded 0xDF (bigEndian 4 n)

mutual

/-- The bytes of a structured value. Mappings with text keys are written in the order of their
keys. -/
def write : Value → List UInt8
  | .null => [0xC0]
  | .bool b => [if b then 0xC3 else 0xC2]
  | .int kind n => writeInt kind n
  | .float64 bits => coded 0xCB (bigEndian 8 bits)
  | .float32 bits => coded 0xCA (bigEndian 4 bits)
  | .number t => writeText t
  | .text t => writeText t
  | .bytes bs => writeBytes bs
  | .list vs => listHead vs.length ++ writeList vs
  | .map es =>
    mapHead es.length ++ (Text.sortByKey (writeEntries es)).flatMap fun e => writeText e.1 ++ e.2
  | .anyMap es => mapHead es.length ++ writePairs es

/-- The bytes of structured values. -/
def writeList : List Value → List UInt8
  | [] => []
  | v :: vs => write v ++ writeList vs

/-- The bytes of structured values under text keys. -/
def writeEntries : List (Text × Value) → List (Text × List UInt8)
  | [] => []
  | (k, v) :: es => (k, write v) :: writeEntries es

/-- The bytes of structured values under arbitrary keys. -/
def writePairs : List (Value × Value) → List UInt8
  | [] => []
  | (k, v) :: es => write k ++ write v ++ writePairs es

end

/-! ## Reading -/

/-- The number some bytes write, most significant first. -/
def natOf (bs : List UInt8) : Nat := bs.foldl (fun n b => n * 256 + b.toNat) 0

/-- The number some bytes write in two's complement. -/
def intOf (bs : List UInt8) : Int :=
  let n : Int := natOf bs
  let size : Int := twoPow (8 * bs.length)
  if 2 * n < size then n else n - size

/-- The first `n` bytes, if there are so many, and the rest. -/
def take? (n : Nat) (bs : List UInt8) : Option (List UInt8 × List UInt8) :=
  let taken := bs.take n
  if taken.length = n then some (taken, bs.drop n) else none

/-- A length of `size` bytes, and the rest. -/
def length? (size : Nat) (bs : List UInt8) : Option (Nat × List UInt8) :=
  (take? size bs).map fun (l, rest) => (natOf l, rest)

/-- `size` bytes for the length of what comes next, and so many bytes. -/
def sized? (size : Nat) (bs : List UInt8) : Option (List UInt8 × List UInt8) :=
  (length? size bs).bind fun (n, rest) => take? n rest

/-- What a code announces. -/
inductive Head where
  | scalar (v : Value)
  | list (n : Nat)
  | map (n : Nat)

/-- What the bytes start with: a scalar, or the head of a list or mapping with its length. -/
def head? : List UInt8 → Option (Head × List UInt8)
  | [] => none
  | c :: bs =>
    let n := c.toNat
    let scalar (x : Option (List UInt8 × List UInt8)) (f : List UInt8 → Value) :
        Option (Head × List UInt8) := x.map fun (payload, rest) => (.scalar (f payload), rest)
    let unsigned (kind : IntKind) (size : Nat) := scalar (take? size bs) fun p => .int kind (natOf p)
    let signed (kind : IntKind) (size : Nat) := scalar (take? size bs) fun p => .int kind (intOf p)
    if n < 0x80 then some (.scalar (.int .int8 n), bs)
    else if n < 0x90 then some (.map (n - 0x80), bs)
    else if n < 0xA0 then some (.list (n - 0x90), bs)
    else if n < 0xC0 then scalar (take? (n - 0xA0) bs) .text
    else if 0xE0 ≤ n then some (.scalar (.int .int8 (n - 256)), bs)
    else
      match n with
      | 0xC0 => some (.scalar .null, bs)
      | 0xC2 => some (.scalar (.bool false), bs)
      | 0xC3 => some (.scalar (.bool true), bs)
      | 0xC4 => scalar (sized? 1 bs) .bytes
      | 0xC5 => scalar (sized? 2 bs) .bytes
      | 0xC6 => scalar (sized? 4 bs) .bytes
      | 0xCA => scalar (take? 4 bs) fun p => .float32 (natOf p)
      | 0xCB => scalar (take? 8 bs) fun p => .float64 (natOf p)
      | 0xCC => unsigned .uint8 1
      | 0xCD => unsigned .uint16 2
      | 0xCE => unsigned .uint32 4
      | 0xCF => unsigned .uint64 8
      | 0xD0 => signed .int8 1
      | 0xD1 => signed .int16 2
      | 0xD2 => signed .int32 4
      | 0xD3 => signed .int64 8
      | 0xD9 => scalar (sized? 1 bs) .text
      | 0xDA => scalar (sized? 2 bs) .text
      | 0xDB => scalar (sized? 4 bs) .text
      | 0xDC => (length? 2 bs).map fun (n, rest) => (.list n, rest)
      | 0xDD => (length? 4 bs).map fun (n, rest) => (.list n, rest)
      | 0xDE => (length? 2 bs).map fun (n, rest) => (.map n, rest)
      | 0xDF => (length? 4 bs).map fun (n, rest) => (.map n, rest)
      | _ => none

/-- A scalar in the kind it has inside lists and mappings. -/
def widen : Value → Value
  | .int kind n =>
    match kind with
    | .uint | .uint8 | .uint16 | .uint32 | .uint64 => .int .uint64 n
    | _ => .int .int64 n
  | .float32 bits => .float64 (Binary.single.widen .double bits)
  | .bytes bs => .text bs
  | v => v

/-- The text of a key: a text, a byte string or null. -/
def keyText? : Value → Option Text
  | .text t => some t
  | .bytes bs => some bs
  | .null => some []
  | _ => none

mutual

/-- The value the bytes start with inside a list or mapping. The fuel bounds the number of steps. -/
def inner? : (fuel : Nat) → List UInt8 → Option (Value × List UInt8)
  | 0, _ => none
  | fuel + 1, bs =>
    match head? bs with
    | none => none
    | some (.scalar v, rest) => some (widen v, rest)
    | some (.list n, rest) => (items? fuel n rest).map fun (vs, rest) => (.list vs, rest)
    | some (.map n, rest) =>
      (entries? fuel n rest).map fun (es, rest) => (.map (Text.lastEntries es), rest)

/-- The given number of values. -/
def items? : (fuel n : Nat) → List UInt8 → Option (List Value × List UInt8)
  | _, 0, bs => some ([], bs)
  | 0, _ + 1, _ => none
  | fuel + 1, n + 1, bs =>
    match inner? fuel bs with
    | none => none
    | some (v, rest) => (items? fuel n rest).map fun (vs, rest) => (v :: vs, rest)

/-- The given number of keys and values. -/
def entries? : (fuel n : Nat) → List UInt8 → Option (List (Text × Value) × List UInt8)
  | _, 0, bs => some ([], bs)
  | 0, _ + 1, _ => none
  | fuel + 1, n + 1, bs =>
    match head? bs with
    | some (.scalar k, rest) =>
      match keyText? k, inner? fuel rest with
      | some k, some (v, rest) => (entries? fuel n rest).map fun (es, rest) => ((k, v) :: es, rest)
      | _, _ => none
    | _ => none

end

/-- The value the bytes start with. Two steps per byte are always enough. -/
def start? (bs : List UInt8) : Option (Value × List UInt8) :=
  match head? bs with
  | some (.scalar v, rest) => some (v, rest)
  | _ => inner? (2 * bs.length + 2) bs

/-- The value the bytes start with. What follows it is not looked at. -/
def read? (bs : List UInt8) : Option Value := (start? bs).map (·.1)

end WireModel.MessagePack
