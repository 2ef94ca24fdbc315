import WireModel.Decode.Reader
import WireModel.Link.Resolve
import WireModel.Value.Codec

/-!
# A sample model

Two small modules that between them use every kind of declaration and every rule of the encoding
table: accounts with balances and tags, trees of numbers, a tagged union with all sorts of
payloads, newtypes over lists and optionals. The sample shows the whole way from a declaration to
bytes and back.
-/

namespace WireModel.Sample

/-! ## The modules -/

/-- A field that has to be there. -/
def required (name : Text) (type : TypeExpr) : Field := { name, type, required := true }

/-- A field that may be missing. -/
def free (name : Text) (type : TypeExpr) : Field := { name, type }

/-- Identifiers, shared by the other module. -/
def baseModule : Module :=
  { name := "include/base"
    path := "include/base"
    decls := [{ name := "Id", body := .newtype (.int 64) }] }

/-- The constants of the sample that are numbers. -/
def codes : List Const :=
  [{ name := "Ok", value := .int .int64 0 },
    { name := "Failed", value := .int .int64 (-1), doc := "The operation failed." }]

/-- The constants of the sample that are texts. -/
def reasons : List Const :=
  [{ name := "NotFound", value := .text "not_found" },
    { name := "Conflict", value := .text "conflict" }]

/-- The variants of a number. -/
def numberVariants : List Variant :=
  [{ name := "Int64", payload := .int 64 },
    { name := "Big", payload := .scalar .bigint },
    { name := "Maybe", payload := .optional (.scalar .string) },
    { name := "Point", payload := .ref [] "NumberPointPayload" },
    { name := "Nothing" }]

/-- The fields of a user besides the inherited identifier. -/
def userFields : List Field :=
  [free "name" (.scalar .string), free "age" (.int 32), free "avatar" (.scalar .bytes),
    required "balance" (.scalar .decimal), free "stars" (.scalar .bigint),
    free "meta" (.scalar .json), required "tags" (.map (.scalar .string)),
    free "number" (.ref [] "Number")]

/-- Users, wallets, numbers and trees. -/
def exampleModule : Module :=
  { name := "example"
    path := "example"
    doc := "Package example holds the models of the round trip tests."
    imports := [{ ns := "base", path := "include/base" }]
    decls :=
      [{ name := "Entity", body := .virtual [required "id" (.ref "base" "Id")] },
        { name := "Code", body := .consts (.int 8) codes },
        { name := "Reason", body := .consts (.scalar .string) reasons },
        { name := "Empty", body := .struct [] },
        { name := "Node", doc := "Node is a tree of integers.", body := .struct
            [required "value" (.int 64), free "children" (.list (.ref [] "Node"))] },
        { name := "Number", body := .union numberVariants "kind" "data" },
        { name := "NumberPointPayload", body := .struct
            [required "x" .float, required "y" .float] },
        { name := "User", extend := "Entity", body := .struct userFields },
        { name := "Ids", body := .newtype (.list (.ref "base" "Id")) },
        { name := "Amount", body := .newtype (.optional (.scalar .decimal)) },
        { name := "Wallet", body := .struct
            [required "owner" (.ref "base" "Id"), required "amount" (.ref [] "Amount"),
              free "ids" (.ref [] "Ids")] },
        { name := "SimpleStruct"
          doc := "SimpleStruct holds fields of the common kinds and a list of itself."
          body := .struct
            [required "bool_value" (.scalar .bool), required "i8_value" (.int 8),
              free "string_to_string" (.map (.scalar .string)),
              free "children" (.list (.ref [] "SimpleStruct"))] }] }

/-- The modules of the sample. -/
def modules : Workspace := [baseModule, exampleModule]

/-- The sample after linking. -/
def graph? : Option ModuleGraph := (resolve modules [0, 1]).2.toOption

/-! ## Using it -/

/-- The place of a declaration of the sample, in either module. -/
def find? (name : Text) : Option DeclId :=
  match baseModule.find? name, exampleModule.find? name with
  | some i, _ => some ⟨0, i⟩
  | none, some i => some ⟨1, i⟩
  | none, none => none

/-- A value of a declaration of the sample. -/
structure Item where
  graph : ModuleGraph
  datum : Datum

/-- Reads a value of a declaration of the sample. -/
def deserialize? (name : Text) (v : Value) : Option (Decoded Item) := do
  let graph ← graph?
  let id ← find? name
  let r ← graph.deserialize id v
  pure (r.map fun datum => { graph, datum })

/-- The structured value of an item. -/
def Item.serialize (x : Item) : Value := x.datum.encode x.graph.workspace

/-- A field of an item that is a record. -/
def Item.field? (x : Item) (name : Text) : Option Item :=
  match x.datum with
  | .record _ fields => (Text.lookup? name fields).map fun datum => { x with datum }
  | _ => none

end WireModel.Sample
