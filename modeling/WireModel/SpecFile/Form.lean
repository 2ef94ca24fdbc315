import WireModel.Document.Json.Shape

/-!
# The form of a spec file

The parts a spec file is made of, which fields each of them has, and what these hold.
-/

namespace WireModel

/-- The parts of a spec file. -/
inductive FilePart where
  | file
  | inclusion
  | model
  | modelType
  | field
  | variant
  | constant
  | type
  deriving DecidableEq, Inhabited

namespace FilePart

/-- The fields of a part. -/
def fields : FilePart → List (Text × Json.Shape FilePart)
  | file =>
    [("desc", .text), ("includes", .list (.record inclusion)), ("meta", .table (.table .text)),
      ("models", .list (.record model))]
  | inclusion => [("path", .text), ("namespace", .text), ("attributes", .table .text)]
  | model =>
    [("name", .text), ("type", .record modelType), ("desc", .text), ("attributes", .table .text)]
  | modelType =>
    [("name", .text), ("extend", .text), ("fields", .list (.record field)),
      ("variants", .list (.record variant)), ("tag_key", .text), ("payload_key", .text),
      ("inner_type", .textOr type), ("value_type", .text), ("values", .list (.record constant))]
  | field =>
    [("name", .text), ("type", .textOr type), ("desc", .text), ("attributes", .table .text),
      ("required", .flag)]
  | variant =>
    [("name", .text), ("payload_type", .textOr type), ("payload_fields", .list (.record field)),
      ("desc", .text)]
  | constant => [("name", .text), ("value", .constant), ("desc", .text)]
  | type =>
    [("name", .text), ("item_type", .textOr type), ("value_type", .textOr type),
      ("namespace", .text), ("target", .text)]

end FilePart

end WireModel
