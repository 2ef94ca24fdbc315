import WireModel.Encoding.Rule
import WireModel.Text.Path

/-!
# Schemas

A schema says which structured values are well formed, in the vocabulary of JSON Schema. The
schemas built here are the shapes of the encoding rules; each keyword combination that is needed
is a constructor, so that what a schema means can be read off its form.

The document of a module has one definition for every declaration with values and for every group
of constants. A reference names the document, relative to the one it stands in, and the definition.
-/

namespace WireModel

/-- The texts of numbers of any size. -/
inductive NumeralForm where
  /-- An optional sign and digits. -/
  | integer
  /-- An optional sign, digits, an optional fraction and an optional exponent. -/
  | decimal
  deriving DecidableEq, Inhabited

namespace NumeralForm

/-- The form as a regular expression. -/
def pattern : NumeralForm → Text
  | integer => "^-?[0-9]+$"
  | decimal => "^-?[0-9]+(\\.[0-9]+)?([eE][-+]?[0-9]+)?$"

end NumeralForm

/-- A schema. -/
inductive Schema where
  /-- Every value. -/
  | any
  /-- No value. -/
  | never
  | boolean
  | number
  | string
  /-- The whole numbers between two bounds. -/
  | integer (least greatest : Int)
  /-- The texts of numbers. -/
  | numeral (form : NumeralForm)
  | array (item : Schema)
  /-- Mappings from any texts. -/
  | dictionary (value : Schema)
  /-- Null, or a value of another schema. -/
  | nullable (schema : Schema)
  /-- A definition, of the same document if the file is empty. -/
  | ref (file definition : Text)
  /-- Exactly one text. -/
  | exactly (t : Text)
  /-- Mappings in which certain keys have certain schemas and some keys must be there. -/
  | object (properties : List (Text × Schema)) (required : List Text)
  /-- The values of exactly one of some schemas. -/
  | oneOf (schemas : List Schema)
  /-- The values of a schema that are listed. -/
  | enum (values : List Value) (schema : Schema)
  /-- A schema with a title. -/
  | titled (title : Text) (schema : Schema)
  /-- A schema with a description. -/
  | described (description : Text) (schema : Schema)
  deriving Inhabited

/-- A schema document. -/
structure SchemaDocument where
  /-- The path of the document. -/
  file : Text
  comment : Text
  title : Text
  description : Text
  definitions : List (Text × Schema)
  deriving Inhabited

namespace Schema

/-- A schema with a description, if there is something to say. -/
def describe (doc : Text) (s : Schema) : Schema := if doc == [] then s else described doc s

/-- The least signed number of a width. -/
def leastOf (width : Int) : Int := -(twoPow (width - 1).toNat : Int)

/-- The greatest signed number of a width. -/
def greatestOf (width : Int) : Int := (twoPow (width - 1).toNat : Int) - 1

/-- The schema of the bytes of a byte sequence. -/
def byte : Schema := integer 0 255

/-- The schema of a scalar that is encoded as itself. -/
def ofScalar (kind : Kind) (width : Int) : Schema :=
  match kind with
  | .bool => boolean
  | .int => integer (leastOf width) (greatestOf width)
  | .float => number
  | _ => string

/-- The path of the document of a module. -/
def fileOf (module : Text) : Text := module ++ ".schema.json"

/-- The way from the document of one module to the document of another. -/
def fileFrom (origin target : Text) : Text :=
  (Path.rel? (Path.dir (fileOf origin)) (fileOf target)).getD (fileOf target)

variable (w : Workspace)

/-- A reference to the definition of a declaration, from the document of a module. -/
def refTo (module : Nat) (d : DeclId) : Schema :=
  let name := ((w.decl? d).map (·.name)).getD []
  if d.module == module then ref [] name
  else ref (fileFrom (((w[module]?).map (·.name)).getD []) (w.moduleName d)) name

/-- The schema of an encoding rule. -/
def ofRule (module : Nat) : Rule → Schema
  | .notEncodable => never
  | .identity kind width => ofScalar kind width
  | .decimalString kind => numeral (if kind == .bigint then .integer else .decimal)
  | .byteSequence => array byte
  | .passthrough => any
  | .sequence e => array (ofRule module e)
  | .mapping e => dictionary (ofRule module e)
  | .nullable e => nullable (ofRule module e)
  | .record d | .tagged d | .transparent d => refTo w module d

/-- The schema of a type. -/
def ofType (module : Nat) (t : TypeExpr) : Schema := ofRule w module (Rule.ofType w t)

/-- The schema of a variant. A payload that may be null may also be left out. -/
def ofVariant (module : Nat) (tagKey payloadKey : Text) (v : VariantRule) : Schema :=
  let tag := (tagKey, exactly v.variant.name)
  describe v.variant.doc <| titled v.variant.name <|
    match v.rule with
    | none => object [tag] [tagKey]
    | some r =>
      object [tag, (payloadKey, ofRule w module r)]
        (if r.shape == .nullable then [tagKey] else [tagKey, payloadKey])

/-- The schema of a declaration, if it has values or lists some. -/
def ofDecl? (module : Nat) (d : Decl) : Option Schema :=
  let s : Option Schema :=
    match d.body with
    | .struct _ =>
      let fields := w.allFields d
      some (object
        (fields.map fun f => (f.name, describe f.doc (ofType w module f.effectiveType)))
        ((fields.filter (·.required)).map (·.name)))
    | .union _ _ _ =>
      match declRule w d with
      | .tagged tagKey payloadKey vs => some (oneOf (vs.map (ofVariant w module tagKey payloadKey)))
      | _ => none
    | .newtype t => some (ofType w module t)
    | .consts t cs => some (enum (cs.map (·.value)) (ofType w module t))
    | _ => none
  s.map (describe d.doc)

end Schema

end WireModel
