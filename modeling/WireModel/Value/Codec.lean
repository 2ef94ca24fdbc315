import WireModel.Value.MessagePack

/-!
# Codecs

The byte formats of structured values, by name.
-/

namespace WireModel

/-- A byte format of structured values. -/
inductive Codec where
  | json
  | msgpack
  deriving DecidableEq, Inhabited

namespace Codec

/-- All codecs, in the order of their names. -/
def all : List Codec := [json, msgpack]

/-- The name of a codec. -/
def name : Codec → Text
  | json => "json"
  | msgpack => "msgpack"

/-- The codec with a name. -/
def ofName? (name : Text) : Option Codec := all.find? (·.name == name)

/-- The wording of a name that no codec has. -/
def unknownMessage (name : Text) : Text := "codec: unknown codec " ++ name.quote

/-- The bytes of a structured value. -/
def marshal (c : Codec) (v : Value) : Except JsonFault (List UInt8) :=
  match c with
  | json => Json.write v
  | msgpack => .ok (MessagePack.write v)

/-- The structured value some bytes start with. -/
def unmarshal? (c : Codec) (bs : List UInt8) : Option Value :=
  match c with
  | json => Json.read? bs
  | msgpack => MessagePack.read? bs

end Codec

end WireModel
