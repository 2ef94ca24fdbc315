import WireModel.Decode.Datum
import WireModel.Link.Graph
import WireModel.Encoding.Rule

/-!
# Readers

A deserializer is put together from readers: one for each scalar, combinators for lists, mappings
and values that may be absent, and the deserializers of declarations. A reader is data, so the
same reader can be run on a structured value and be written out as program text.

Running a reader asks for the meaning of the declarations it names. `readDecl` ties the knot: it
runs the deserializer of a declaration to a given depth of declarations inside each other, and
gives no answer when the depth does not suffice.
-/

namespace WireModel

/-- A reader of structured values. -/
inductive Reader where
  | bool
  | int (width : Nat)
  | float
  | text
  | bigint
  | decimal
  | bytes
  | json
  | list (item : Reader)
  | map (item : Reader)
  /-- A value held behind an indirection of its own, or null. -/
  | optional (item : Reader)
  /-- A value whose kind has room for null already. -/
  | nullable (item : Reader)
  /-- A value held behind an indirection because its type is recursive; null is refused. -/
  | boxed (item : Reader)
  /-- A value of a declaration. -/
  | decl (d : DeclId)
  deriving DecidableEq, Inhabited

/-- What reading gives: an answer, or nothing if the depth did not suffice. -/
abbrev Reading (α : Type) := Option (Decoded α)

namespace Reading

/-- A reading that does not depend on depth. -/
def lift {α : Type} (r : Decoded α) : Reading α := some r

/-- One reading after the other; the first error ends it. -/
def andThen {α β : Type} (r : Reading α) (f : α → Reading β) : Reading β :=
  match r with
  | none => none
  | some (.error e) => some (.error e)
  | some (.ok a) => f a

/-- A reading with its result changed. -/
def map {α β : Type} (f : α → β) (r : Reading α) : Reading β :=
  r.andThen fun a => some (.ok (f a))

/-- A reading with its error changed. -/
def mapError {α : Type} (f : DecodeError → DecodeError) : Reading α → Reading α
  | some (.error e) => some (.error (f e))
  | r => r

end Reading

namespace Reader

/-- What stands for a value that was not given. -/
def zero : Reader → Datum
  | bool => .bool false
  | int width => .int width 0
  | float => .float 0
  | text => .text []
  | bigint => .absent
  | decimal => .decimal ⟨0, 0⟩
  | bytes => .bytes []
  | json => .json .null
  | list _ => .list []
  | map _ => .map []
  | optional _ => .absent
  | nullable _ => .absent
  | boxed _ => .absent
  | decl _ => .absent

/-- The elements of a sequence read one after the other. -/
def readList (read : Value → Reading Datum) : (pos : Nat) → List Value → Reading (List Datum)
  | _, [] => some (.ok [])
  | pos, v :: vs =>
    ((read v).mapError (·.inField (Text.ofNat pos))).andThen fun x =>
      (readList read (pos + 1) vs).map (x :: ·)

/-- The entries of a mapping read one after the other. -/
def readEntries (read : Value → Reading Datum) :
    List (Text × Value) → Reading (List (Text × Datum))
  | [] => some (.ok [])
  | (k, v) :: es =>
    ((read v).mapError (·.inField k)).andThen fun x => (readEntries read es).map ((k, x) :: ·)

/-- Runs a reader, given the deserializers of declarations. -/
def run (deserialize : DeclId → Value → Reading Datum) : Reader → Value → Reading Datum
  | bool, v => some (v.toBool.map .bool)
  | int width, v => some ((v.toInt width).map (.int width))
  | float, v => some (v.toFloat.map .float)
  | text, v => some (v.toText.map .text)
  | bigint, v => some (v.toBigint.map .bigint)
  | decimal, v => some (v.toDecimal.map .decimal)
  | bytes, v => some (v.toBytes.map .bytes)
  | json, v => some (.ok (.json v))
  | list item, v =>
    match v with
    | .list vs => (readList (item.run deserialize) 0 vs).map .list
    | v => some (.error (.mismatch "sequence" v))
  | map item, v =>
    (Reading.lift v.toObject).andThen fun es =>
      (readEntries (item.run deserialize) es).map .map
  | optional item, v =>
    match v with
    | .null => some (.ok .absent)
    | v => (item.run deserialize v).map .present
  | nullable item, v =>
    match v with
    | .null => some (.ok .absent)
    | v => (item.run deserialize v).map .present
  | boxed item, v =>
    match v with
    | .null => some (.error (.mismatch "value" .null))
    | v => (item.run deserialize v).map .present
  | decl d, v => deserialize d v

/-- The value under a key that has to be there. -/
def readRequired (read : Value → Reading Datum) (es : List (Text × Value)) (key : Text) :
    Reading Datum :=
  match Text.lookup? key es with
  | some v => (read v).mapError (·.inField key)
  | none => some (.error { failure := .missingField, path := [key] })

/-- The value under a key, or what stands for a value that is not given. -/
def readOptional (read : Value → Reading Datum) (zero : Datum) (es : List (Text × Value))
    (key : Text) : Reading Datum :=
  match Text.lookup? key es with
  | some v => (read v).mapError (·.inField key)
  | none => some (.ok zero)

/-! ## The readers of types -/

/-- Whether values of a type have room for null already, so that an optional of it needs no
indirection: big integers, passed through values and unions. -/
def isNilable (w : Workspace) : TypeExpr → Bool
  | .node .bigint _ _ _ | .node .json _ _ _ => true
  | .node .ref width ref elem => (Rule.ofType w (.node .ref width ref elem)).shape == .tagged
  | _ => false

/-- The width of the integers that hold values of a written width. -/
def intWidth (width : Int) : Nat :=
  if width == 8 then 8 else if width == 16 then 16 else if width == 32 then 32 else 64

/-- The reader of a type. A reference that is not bound reads as a passed through value. -/
def ofType (w : Workspace) : TypeExpr → Reader
  | .missing => json
  | .node k width ref elem =>
    match k with
    | .bool => bool
    | .int => int (intWidth width)
    | .float => float
    | .string => text
    | .bigint => bigint
    | .decimal => decimal
    | .bytes => bytes
    | .list => list (ofType w elem)
    | .map => map (ofType w elem)
    | .optional => if isNilable w elem then nullable (ofType w elem) else optional (ofType w elem)
    | .ref =>
      match ref.bind (·.target) with
      | some d => decl d
      | none => json
    | _ => json

/-- Whether a type is a reference to a declaration that is held by value: a struct or newtype. -/
def isBoxable (w : Workspace) (t : TypeExpr) : Bool :=
  t.kind? == some .ref &&
    ((Rule.ofType w t).shape == .record || (Rule.ofType w t).shape == .transparent)

/-- Whether a member is held behind an indirection because its type is recursive. -/
def isBoxed (w : Workspace) (m : LinkedModule) (d : DeclId) (member : Text) (t : TypeExpr) : Bool :=
  isBoxable w t && m.isIndirect d member

/-- The reader of a struct field or of the value of a newtype. -/
def ofMember (w : Workspace) (m : LinkedModule) (d : DeclId) (member : Text) (t : TypeExpr) :
    Reader :=
  if isBoxed w m d member t then boxed (ofType w t) else ofType w t

end Reader

/-! ## Deserializers -/

namespace ModuleGraph

variable (g : ModuleGraph)

/-- The fields of a record read one after the other. -/
def readFields (deserialize : DeclId → Value → Reading Datum) (m : LinkedModule) (id : DeclId)
    (es : List (Text × Value)) : List Field → Reading (List (Text × Datum))
  | [] => some (.ok [])
  | f :: fs =>
    let reader := Reader.ofMember g.workspace m id f.name f.effectiveType
    let read := reader.run deserialize
    let value :=
      if f.required then Reader.readRequired read es f.name
      else Reader.readOptional read reader.zero es f.name
    value.andThen fun x => (readFields deserialize m id es fs).map ((f.name, x) :: ·)

/-- The payload of a union value with the given discriminator. -/
def readVariant (deserialize : DeclId → Value → Reading Datum) (id : DeclId) (d : Decl)
    (es : List (Text × Value)) (tag : Text) : Reading Datum :=
  match d.variants.find? (·.name == tag) with
  | none => some (.error (.unknownVariant d.name tag))
  | some v =>
    if v.isVoid then some (.ok (.void id tag))
    else
      let reader := Reader.ofType g.workspace v.payload
      let read := reader.run deserialize
      let value :=
        if v.payload.isOptional then Reader.readOptional read reader.zero es d.payloadKey
        else Reader.readRequired read es d.payloadKey
      value.map (.variant id tag)

/-- The deserializer of a declaration, given those of the declarations it names. -/
def readBody (deserialize : DeclId → Value → Reading Datum) (m : LinkedModule) (id : DeclId)
    (d : Decl) (v : Value) : Reading Datum :=
  match d.body with
  | .struct _ =>
    (Reading.lift v.toObject).andThen fun es =>
      (g.readFields deserialize m id es (g.workspace.allFields d)).map (.record id)
  | .union _ _ _ =>
    (Reading.lift v.toObject).andThen fun es =>
      (Reader.readRequired (Reader.text.run deserialize) es d.tagKey).andThen fun
        | .text tag => g.readVariant deserialize id d es tag
        | _ => none
  | .newtype t =>
    ((Reader.ofMember g.workspace m id [] t).run deserialize v).map (.wrapped id)
  | _ => none

/-- The deserializer of a declaration, to a depth of declarations inside each other. -/
def readDecl : (depth : Nat) → DeclId → Value → Reading Datum
  | 0, _, _ => none
  | depth + 1, id, v =>
    match g.moduleOf? id, g.workspace.decl? id with
    | some m, some d => (g.readBody (readDecl depth) m id d v).mapError (·.inDecl d.name)
    | _, _ => none

/-- The number of declarations of a graph. -/
def declCount : Nat := g.workspace.foldr (fun m n => m.decls.length + n) 0

/-- A depth that suffices for a value: between two steps into the value, the deserializers of
different declarations may follow each other. -/
def depthFor (v : Value) : Nat := (v.height + 1) * (g.declCount + 1)

/-- The deserializer of a declaration. -/
def deserialize (id : DeclId) (v : Value) : Reading Datum := g.readDecl (g.depthFor v) id v

end ModuleGraph

end WireModel
