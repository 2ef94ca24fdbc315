import WireModel.Decode.Scalar
import WireModel.Spec.Module

/-!
# Data

The typed values that deserializers produce and serializers take: scalars in the range of their
type, lists, mappings, records, variants and wrapped values. Something that is not there is
`absent`; an optional that is there, or a value held behind an indirection, is `present`.
-/

namespace WireModel

/-- A typed value. -/
inductive Datum where
  | bool (b : Bool)
  /-- An integer of a width. -/
  | int (width : Nat) (n : Int)
  /-- A 64 bit floating point number, by its pattern. -/
  | float (bits : Nat)
  | text (t : Text)
  | bigint (n : Int)
  | decimal (d : Decimal)
  | bytes (bs : List UInt8)
  /-- A structured value that is passed through. -/
  | json (v : Value)
  | list (xs : List Datum)
  | map (es : List (Text × Datum))
  | absent
  | present (x : Datum)
  /-- A value of a struct, with one entry for each field. -/
  | record (d : DeclId) (fields : List (Text × Datum))
  /-- A value of a void variant of a union. -/
  | void (d : DeclId) (tag : Text)
  /-- A value of a variant of a union, with its payload. -/
  | variant (d : DeclId) (tag : Text) (payload : Datum)
  /-- A value of a newtype. -/
  | wrapped (d : DeclId) (x : Datum)
  deriving Inhabited

namespace Datum

/-- The keys of an encoded union. -/
def unionKeys (w : Workspace) (d : DeclId) : Text × Text :=
  match w.decl? d with
  | some d => (d.tagKey, d.payloadKey)
  | none => (defaultTag, defaultPayload)

mutual

/-- The structured value of a datum. Every field of a record is written, absent ones as null. -/
def encode (w : Workspace) : Datum → Value
  | bool b => .bool b
  | int width n => .int (.signed width) n
  | float bits => .float64 bits
  | text t => .text t
  | bigint n => .text (Text.ofInt n)
  | decimal d => .text d.toText
  | bytes bs => .list (bs.map fun b => .int .int b.toNat)
  | json v => v
  | list xs => .list (encodeList w xs)
  | map es => .map (encodeEntries w es)
  | absent => .null
  | present x => x.encode w
  | record _ fields => .map (Text.sortByKey (encodeEntries w fields))
  | void d tag => .map [((unionKeys w d).1, .text tag)]
  | variant d tag payload =>
    .map (Text.sortByKey [((unionKeys w d).1, .text tag), ((unionKeys w d).2, payload.encode w)])
  | wrapped _ x => x.encode w

/-- The structured values of data. -/
def encodeList (w : Workspace) : List Datum → List Value
  | [] => []
  | x :: xs => x.encode w :: encodeList w xs

/-- The structured values of data under keys. -/
def encodeEntries (w : Workspace) : List (Text × Datum) → List (Text × Value)
  | [] => []
  | (k, x) :: es => (k, x.encode w) :: encodeEntries w es

end

end Datum

end WireModel
