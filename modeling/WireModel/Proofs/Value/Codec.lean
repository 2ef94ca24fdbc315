import WireModel.Proofs.Value.JsonStream
import WireModel.Proofs.Value.MessagePack
import WireModel.Value.Codec

/-!
# Codecs — how much of the data is read

Both codecs read from a stream. They take one value from the front of the data
and do not ask whether anything is left (`Codec.unmarshal?_eq_some_iff`). So
the encoding of a value is read with anything behind it
(`Codec.IsEncoding.unmarshal?_append`), and data that is read need not be the
encoding of one value.
-/

namespace WireModel

namespace Codec

variable {c : Codec} {data more : List UInt8} {v : Value}

/-- **The encoding of one value**: a JSON text with white space around it, or
the bytes of one MessagePack object. -/
def IsEncoding (c : Codec) (data : List UInt8) (v : Value) : Prop :=
  match c with
  | json => ∃ after, Json.IsElement Json.maxDepth true data v after
  | msgpack => MessagePack.IsObject true data v

/-- What a codec takes for a value, in front of what it leaves. -/
def Takes (c : Codec) (v : Value) (text rest : List UInt8) : Prop :=
  match c with
  | json => Json.Starts v text rest
  | msgpack => MessagePack.IsObject true text v

/-- **The encoding of a value is read in front of anything.** Only a number that
is written out must not go on there. -/
theorem IsEncoding.unmarshal?_append (h : c.IsEncoding data v)
    (hmore : c = json → Json.Ends v more) : c.unmarshal? (data ++ more) = some v := by
  cases c with
  | json =>
    obtain ⟨_, @⟨_, _, _, a, t, b, _, ha, h, hb⟩⟩ := h
    refine Json.read?_eq_some_iff.mpr ⟨a ++ t, b ++ more, by simp only [List.append_assoc], ?_⟩
    exact .whole (.spaces ha) h ((hmore rfl).spaces_append hb)
  | msgpack => exact MessagePack.read?_eq_some_iff.mpr ⟨data, more, rfl, h⟩

namespace Sample

end Sample

end Codec

end WireModel
