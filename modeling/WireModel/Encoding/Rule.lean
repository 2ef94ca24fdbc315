import WireModel.Spec.Module
import WireModel.Decode.Error

/-!
# Encoding rules

The table that maps every type to the shape of its structured value. Serializers, deserializers,
schemas and descriptions all follow it, so they agree with each other. The rule of a reference
names the declaration and does not look into it; `declRule` does, one level deep.
-/

namespace WireModel

/-- The shapes of encoded values. -/
inductive Shape where
  /-- The type has no values. -/
  | notEncodable
  /-- Scalars that are encoded as themselves. -/
  | identity
  /-- Numbers of any size, as decimal texts. -/
  | decimalString
  /-- Bytes, as a sequence of numbers below 256. -/
  | byteSequence
  /-- Values that are left as they are. -/
  | passthrough
  | sequence
  | mapping
  /-- The value or null. -/
  | nullable
  /-- A mapping with one key for each field. -/
  | record
  /-- A mapping of a discriminator and a payload. -/
  | tagged
  /-- The shape of the wrapped type. -/
  | transparent
  deriving DecidableEq, Inhabited

namespace Shape

/-- The name of a shape. -/
def name : Shape → Text
  | notEncodable => "not encodable"
  | identity => "identity"
  | decimalString => "decimal string"
  | byteSequence => "byte sequence"
  | passthrough => "passthrough"
  | sequence => "sequence"
  | mapping => "mapping"
  | nullable => "nullable"
  | record => "record"
  | tagged => "tagged"
  | transparent => "transparent"

/-- All shapes, in the order of their codes. -/
def all : List Shape :=
  [notEncodable, identity, decimalString, byteSequence, passthrough, sequence, mapping, nullable,
    record, tagged, transparent]

/-- The name of the shape with a code. -/
def nameOfCode (n : Nat) : Text :=
  match all[n]? with
  | some s => s.name
  | none => "invalid"

end Shape

/-- How the values of a type are encoded. -/
inductive Rule where
  | notEncodable
  /-- A scalar of a kind, with its bit width if it is an integer. -/
  | identity (kind : Kind) (width : Int)
  | decimalString (kind : Kind)
  | byteSequence
  | passthrough
  | sequence (elem : Rule)
  | mapping (elem : Rule)
  | nullable (elem : Rule)
  | record (d : DeclId)
  | tagged (d : DeclId)
  | transparent (d : DeclId)
  deriving DecidableEq, Inhabited

namespace Rule

/-- The rule of a reference, by what it is bound to. -/
def ofTarget (w : Workspace) : Option DeclId → Rule
  | none => notEncodable
  | some id =>
    match w.decl? id with
    | none => notEncodable
    | some d =>
      match d.body with
      | .struct _ => record id
      | .union _ _ _ => tagged id
      | .newtype _ => transparent id
      | _ => notEncodable

/-- The rule of a type. Every type has one, also malformed types and unbound references. -/
def ofType (w : Workspace) : TypeExpr → Rule
  | .missing => notEncodable
  | .node k width ref elem =>
    match k with
    | .bool | .int | .float | .string => identity k width
    | .bigint | .decimal => decimalString k
    | .bytes => byteSequence
    | .json => passthrough
    | .list => sequence (ofType w elem)
    | .map => mapping (ofType w elem)
    | .optional => nullable (ofType w elem)
    | .ref => ofTarget w (ref.bind (·.target))
    | _ => notEncodable

/-- The shape of a rule. -/
def shape : Rule → Shape
  | notEncodable => .notEncodable
  | identity _ _ => .identity
  | decimalString _ => .decimalString
  | byteSequence => .byteSequence
  | passthrough => .passthrough
  | sequence _ => .sequence
  | mapping _ => .mapping
  | nullable _ => .nullable
  | record _ => .record
  | tagged _ => .tagged
  | transparent _ => .transparent

/-- The declaration a rule names. -/
def decl? : Rule → Option DeclId
  | record d | tagged d | transparent d => some d
  | _ => none

/-- Whether values of the rule exist. -/
def isEncodable : Rule → Bool
  | notEncodable => false
  | sequence e | mapping e | nullable e => e.isEncodable
  | _ => true

/-- The rule in words. -/
def toText (w : Workspace) : Rule → Text
  | identity k width => "identity " ++ (TypeExpr.node k width none .missing).toText
  | decimalString k => "decimal string (" ++ k.name ++ ")"
  | sequence e => "sequence of " ++ e.toText w
  | mapping e => "mapping of " ++ e.toText w
  | nullable e => "nullable " ++ e.toText w
  | record d => "record " ++ w.qualifiedName d
  | tagged d => "tagged " ++ w.qualifiedName d
  | transparent d => "transparent " ++ w.qualifiedName d
  | r => r.shape.name

end Rule

/-! ## Declarations -/

/-- The rule of a record field. -/
structure FieldRule where
  field : Field
  /-- The rule of the field's value; optional fields are nullable. -/
  rule : Rule
  deriving Inhabited

/-- The rule of a variant. -/
structure VariantRule where
  variant : Variant
  /-- The rule of the payload; a void variant is encoded by its discriminator alone. -/
  rule : Option Rule
  deriving Inhabited

/-- The rule of a declaration, with the rules of its members. -/
inductive DeclRule where
  | notEncodable
  /-- A record, with the fields it takes over first. -/
  | record (fields : List FieldRule)
  | tagged (tagKey payloadKey : Text) (variants : List VariantRule)
  | transparent (wrapped : Rule)
  deriving Inhabited

/-- The rule of a declaration. -/
def declRule (w : Workspace) (d : Decl) : DeclRule :=
  match d.body with
  | .struct _ => .record ((w.allFields d).map fun f => ⟨f, Rule.ofType w f.effectiveType⟩)
  | .union vs _ _ =>
    .tagged d.tagKey d.payloadKey (vs.map fun v =>
      ⟨v, if v.isVoid then none else some (Rule.ofType w v.payload)⟩)
  | .newtype t => .transparent (Rule.ofType w t)
  | _ => .notEncodable

namespace DeclRule

/-- The shape of a declaration's values. -/
def shape : DeclRule → Shape
  | notEncodable => .notEncodable
  | record _ => .record
  | tagged _ _ _ => .tagged
  | transparent _ => .transparent

/-- The rules of the members. -/
def memberRules : DeclRule → List Rule
  | notEncodable => []
  | record fs => fs.map (·.rule)
  | tagged _ _ vs => vs.filterMap (·.rule)
  | transparent r => [r]

end DeclRule

end WireModel
