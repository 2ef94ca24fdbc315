import WireModel.Document.Draft
import WireModel.SpecFile.Basic

/-!
# Reading spec files

The form of a spec file in a document: which keys there are and what they hold. Keys that are not
known are passed over.
-/

namespace WireModel

namespace WrittenType

mutual

/-- A type: a text, or an object with its parts. -/
def read (old : WrittenType) : Doc → Draft WrittenType
  | .scalar .null _ _ => pure absent
  | .scalar _ source _ =>
    match old.orBlank with
    | form _ name item value ns target => pure (form source name item value ns target)
    | absent => pure absent
  | .list _ _ => .refuse old
  | .object es _ => readParts old.orBlank es

/-- The parts of a type that is an object. -/
def readParts : WrittenType → List (Doc × Doc) → Draft WrittenType
  | old, [] => pure old
  | old, (k, v) :: es => do
    let key ← Draft.keyName k
    let now ← match old with
      | absent => pure absent
      | form expr name item value ns target =>
        if key == some "name" then
          (form expr · item value ns target) <$> Draft.text name v
        else if key == some "item_type" then
          (form expr name · value ns target) <$> read item v
        else if key == some "value_type" then
          (form expr name item · ns target) <$> read value v
        else if key == some "namespace" then
          (form expr name item value · target) <$> Draft.text ns v
        else if key == some "target" then
          (form expr name item value ns ·) <$> Draft.text target v
        else pure old
    readParts now es

end

end WrittenType

namespace FieldEntry

/-- One key of a field. -/
def readKey (f : FieldEntry) (key : Text) (v : Doc) : Draft FieldEntry :=
  if key == "name" then (fun x => { f with name := x }) <$> Draft.text f.name v
  else if key == "type" then (fun x => { f with type := x }) <$> f.type.read v
  else if key == "desc" then (fun x => { f with doc := x }) <$> Draft.text f.doc v
  else if key == "attributes" then
    (fun x => { f with attributes := x }) <$> Draft.textMap f.attributes v
  else if key == "required" then (fun x => { f with required := x }) <$> Draft.flag f.required v
  else pure f

/-- A field. -/
def read : FieldEntry → Doc → Draft FieldEntry := Draft.fields (readKey)

end FieldEntry

namespace VariantEntry

/-- One key of a variant. -/
def readKey (x : VariantEntry) (key : Text) (v : Doc) : Draft VariantEntry :=
  if key == "name" then (fun y => { x with name := y }) <$> Draft.text x.name v
  else if key == "payload_type" then (fun y => { x with payload := y }) <$> x.payload.read v
  else if key == "payload_fields" then
    (fun y => { x with fields := y }) <$> Draft.items? (FieldEntry.read) x.fields v
  else if key == "desc" then (fun y => { x with doc := y }) <$> Draft.text x.doc v
  else pure x

/-- A variant. -/
def read : VariantEntry → Doc → Draft VariantEntry := Draft.fields (readKey)

end VariantEntry

namespace ConstEntry

/-- One key of a constant. -/
def readKey (x : ConstEntry) (key : Text) (v : Doc) : Draft ConstEntry :=
  if key == "name" then (fun y => { x with name := y }) <$> Draft.text x.name v
  else if key == "value" then (fun y => { x with value := y }) <$> Draft.constant x.value v
  else if key == "desc" then (fun y => { x with doc := y }) <$> Draft.text x.doc v
  else pure x

/-- A constant. -/
def read : ConstEntry → Doc → Draft ConstEntry := Draft.fields (readKey)

end ConstEntry

namespace ModelType

/-- One key of what a model is. -/
def readKey (x : ModelType) (key : Text) (v : Doc) : Draft ModelType :=
  if key == "name" then (fun y => { x with name := y }) <$> Draft.text x.name v
  else if key == "extend" then (fun y => { x with extend := y }) <$> Draft.text x.extend v
  else if key == "fields" then
    (fun y => { x with fields := y }) <$> Draft.items (FieldEntry.read) x.fields v
  else if key == "variants" then
    (fun y => { x with variants := y }) <$> Draft.items (VariantEntry.read) x.variants v
  else if key == "tag_key" then (fun y => { x with tagKey := y }) <$> Draft.text x.tagKey v
  else if key == "payload_key" then (fun y => { x with payloadKey := y }) <$> Draft.text x.payloadKey v
  else if key == "inner_type" then (fun y => { x with inner := y }) <$> x.inner.read v
  else if key == "value_type" then (fun y => { x with valueType := y }) <$> Draft.text x.valueType v
  else if key == "values" then
    (fun y => { x with values := y }) <$> Draft.items (ConstEntry.read) x.values v
  else pure x

/-- What a model is. -/
def read : ModelType → Doc → Draft ModelType := Draft.fields (readKey)

end ModelType

namespace ModelEntry

/-- One key of a model. -/
def readKey (m : ModelEntry) (key : Text) (v : Doc) : Draft ModelEntry :=
  if key == "name" then (fun y => { m with name := y }) <$> Draft.text m.name v
  else if key == "type" then (fun y => { m with type := y }) <$> m.type.read v
  else if key == "desc" then (fun y => { m with doc := y }) <$> Draft.text m.doc v
  else if key == "attributes" then
    (fun y => { m with attributes := y }) <$> Draft.textMap m.attributes v
  else pure m

/-- A model. -/
def read : ModelEntry → Doc → Draft ModelEntry := Draft.fields (readKey)

end ModelEntry

namespace IncludeEntry

/-- One key of an include. -/
def readKey (x : IncludeEntry) (key : Text) (v : Doc) : Draft IncludeEntry :=
  if key == "path" then (fun y => { x with path := y }) <$> Draft.text x.path v
  else if key == "namespace" then (fun y => { x with ns := y }) <$> Draft.text x.ns v
  else if key == "attributes" then
    (fun y => { x with attributes := y }) <$> Draft.textMap x.attributes v
  else pure x

/-- An include. -/
def read : IncludeEntry → Doc → Draft IncludeEntry := Draft.fields (readKey)

end IncludeEntry

namespace SpecFile

/-- One key of a spec file. -/
def readKey (x : SpecFile) (key : Text) (v : Doc) : Draft SpecFile :=
  if key == "desc" then (fun y => { x with doc := y }) <$> Draft.text x.doc v
  else if key == "includes" then
    (fun y => { x with includes := y }) <$> Draft.items (IncludeEntry.read) x.includes v
  else if key == "meta" then
    (fun y => { x with settings := y }) <$> Draft.mapping (Draft.textMap []) x.settings v
  else if key == "models" then
    (fun y => { x with models := y }) <$> Draft.items (ModelEntry.read) x.models v
  else pure x

/-- A spec file. -/
def read (doc : Doc) : Draft SpecFile := Draft.fields (readKey) {} doc

end SpecFile

end WireModel
