import WireModel.Document.Json
import WireModel.Text.Base64
import WireModel.Value.Basic

/-!
# Structured values as JSON

Numbers are read as they are written and kept as text, so nothing is lost before a deserializer
asks for a certain type. Written objects have their keys in the order of their quoted texts, which
makes the text of a value unique.
-/

namespace WireModel

/-- Why a structured value has no JSON text. -/
inductive JsonFault where
  /-- A floating point number that is not finite, as messages show it. -/
  | notFinite (shown : Text)
  /-- A number whose text is none. -/
  | badNumber (text : Text)
  /-- A mapping whose keys are not texts. -/
  | badKeys
  deriving DecidableEq, Inhabited

namespace JsonFault

/-- The wording of a fault. -/
def message : JsonFault → Text
  | notFinite t => "json: unsupported value: " ++ t
  | badNumber t => "json: invalid number literal " ++ t.quote
  | badKeys => "json: unsupported type: interface \x7b\x7d"

end JsonFault

namespace Json

/-! ## Writing -/

/-- How a rune is written in a string. Besides what has to be escaped, characters that mean
something to a page a text may be pasted into are. -/
def writeRune : Rune → Text
  | .stray _ => "\\ufffd"
  | .code c =>
    if c == '"'.toNat then "\\\""
    else if c == '\\'.toNat then "\\\\"
    else if c == 0x0A then "\\n"
    else if c == 0x0D then "\\r"
    else if c == 0x09 then "\\t"
    else if c < 0x20 || c == '<'.toNat || c == '>'.toNat || c == '&'.toNat || c == 0x2028 ||
        c == 0x2029 then "\\u" ++ Text.ofHex 4 c
    else Text.ofRune c

/-- The text as a JSON string. -/
def writeText (t : Text) : Text := "\"" ++ t.runes.flatMap writeRune ++ "\""

/-- The text of a floating point number. -/
def writeFloat (f : Binary) (bits : Nat) : Except JsonFault Text :=
  match f.decode bits with
  | .finite neg m q => .ok (FloatFormat.document.writeFinite f neg m q)
  | _ => .error (.notFinite (f.display bits))

/-- The text of a number that is kept as it was written. -/
def writeNumber (t : Text) : Except JsonFault Text :=
  if t == [] then .ok "0" else if t.all isNumberByte then .ok t else .error (.badNumber t)

/-- The written members of an object, in the order of their keys. -/
def writeMembers (es : List (Text × Text)) : Text :=
  let es := Text.sortByKey (es.map fun e => (writeText e.1, e.2))
  "\x7b" ++ Text.join "," (es.map fun e => e.1 ++ ":" ++ e.2) ++ "\x7d"

mutual

/-- The JSON text of a structured value, without blanks. -/
def write : Value → Except JsonFault Text
  | .null => .ok "null"
  | .bool b => .ok (if b then "true" else "false")
  | .int _ n => .ok (Text.ofInt n)
  | .float64 bits => writeFloat .double bits
  | .float32 bits => writeFloat .single bits
  | .number t => writeNumber t
  | .text t => .ok (writeText t)
  | .bytes bs => .ok (writeText (Base64.encode bs))
  | .list vs => (writeList vs).map fun ts => "[" ++ Text.join "," ts ++ "]"
  | .map es => (writeEntries es).map writeMembers
  | .anyMap _ => .error .badKeys

/-- The JSON texts of structured values. -/
def writeList : List Value → Except JsonFault (List Text)
  | [] => .ok []
  | v :: vs => do
    let t ← write v
    let ts ← writeList vs
    .ok (t :: ts)

/-- The JSON texts of structured values under keys. -/
def writeEntries : List (Text × Value) → Except JsonFault (List (Text × Text))
  | [] => .ok []
  | (k, v) :: es => do
    let t ← write v
    let ts ← writeEntries es
    .ok ((k, t) :: ts)

end

/-! ## Indented text -/

/-- A line end and the indentation of a depth. -/
def lineBreak (depth : Nat) : Text := "\n" ++ Text.repeated depth "  "

/-- Written parts between brackets, each on a line of its own. -/
def writeBlock (opening closing : Text) (depth : Nat) (parts : List Text) : Text :=
  if parts.isEmpty then opening ++ closing
  else
    opening ++ lineBreak (depth + 1) ++ Text.join ("," ++ lineBreak (depth + 1)) parts ++
      lineBreak depth ++ closing

mutual

/-- The JSON text of a structured value at a depth, with every item and member on a line of its
own. -/
def writeIndented (depth : Nat) : Value → Except JsonFault Text
  | .list vs => (writeIndentedList (depth + 1) vs).map (writeBlock "[" "]" depth)
  | .map es => (writeIndentedEntries (depth + 1) es).map fun ts =>
      writeBlock "\x7b" "\x7d" depth
        ((Text.sortByKey (ts.map fun e => (writeText e.1, e.2))).map fun e => e.1 ++ ": " ++ e.2)
  | v => write v

/-- The indented JSON texts of structured values. -/
def writeIndentedList (depth : Nat) : List Value → Except JsonFault (List Text)
  | [] => .ok []
  | v :: vs => do
    let t ← writeIndented depth v
    let ts ← writeIndentedList depth vs
    .ok (t :: ts)

/-- The indented JSON texts of structured values under keys. -/
def writeIndentedEntries (depth : Nat) : List (Text × Value) → Except JsonFault (List (Text × Text))
  | [] => .ok []
  | (k, v) :: es => do
    let t ← writeIndented depth v
    let ts ← writeIndentedEntries depth es
    .ok ((k, t) :: ts)

end

end Json

/-! ## Reading -/

/-- Entries with every key once, in the order of the keys; the last entry of a key counts. -/
def Text.lastEntries {α : Type} (es : List (Text × α)) : List (Text × α) :=
  Text.sortByKey (go es)
where
  /-- The entries that no later entry replaces. -/
  go : List (Text × α) → List (Text × α)
    | [] => []
    | e :: es => if es.any (·.1 == e.1) then go es else e :: go es

/-- The text of a key. -/
def Doc.keyText : Doc → Text
  | .scalar _ t _ => t
  | _ => []

mutual

/-- The structured value of a document. Numbers keep their text. -/
def Doc.toValue : Doc → Value
  | .scalar kind source _ =>
    match kind with
    | .null => .null
    | .bool b => .bool b
    | .int _ | .float => .number source
    | .timestamp | .merge | .text => .text source
  | .list items _ => .list (Doc.toValues items)
  | .object es _ => .map (Text.lastEntries (Doc.toEntries es))

/-- The structured values of documents. -/
def Doc.toValues : List Doc → List Value
  | [] => []
  | d :: ds => d.toValue :: Doc.toValues ds

/-- The structured values of the entries of an object. -/
def Doc.toEntries : List (Doc × Doc) → List (Text × Value)
  | [] => []
  | (k, d) :: es => (k.keyText, d.toValue) :: Doc.toEntries es

end

/-- The structured value of the JSON value a text starts with. What follows it is not looked at. -/
def Json.read? (t : Text) : Option Value := (Json.start? t).map Doc.toValue

end WireModel
