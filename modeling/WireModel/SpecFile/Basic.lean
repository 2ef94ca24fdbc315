import WireModel.Spec.TypeParser
import WireModel.Text.Path
import WireModel.Value.Basic

/-!
# Spec files

What a spec file says, before it becomes a module. Entries of lists may be null, and nearly
everything may be left out; what that means is decided when declarations are made of it.
-/

namespace WireModel

/-! ## Types -/

/-- A type as a file writes it: a text in type syntax, or an object that names the type and says
what it is made of. -/
inductive WrittenType where
  | absent
  /-- A type with its text, which is empty for an object, and the parts of an object. -/
  | form (expr name : Text) (item value : WrittenType) (ns target : Text)
  deriving DecidableEq, Inhabited

namespace WrittenType

/-- A type that says nothing. -/
def blank : WrittenType := form [] [] absent absent [] []

/-- The type itself, or one that says nothing if there is none. -/
def orBlank : WrittenType → WrittenType
  | absent => blank
  | t => t

/-- A type in type syntax, as a fault tells about it. -/
def parseText (t : Text) : Except Text TypeExpr :=
  match TypeExpr.parse t with
  | .ok t => .ok t
  | .error e => .error e.message

/-- The type that is written. A text goes before everything else. -/
def type : WrittenType → Except Text TypeExpr
  | absent => .error "missing type name"
  | form expr name item value ns target =>
    if expr != [] then parseText expr
    else if name == "list" || name == "optional" then
      match item with
      | absent => .error (name ++ " requires item_type")
      | item => (if name == "list" then TypeExpr.list else TypeExpr.optional) <$> item.type
    else if name == "map" then
      match value with
      | absent => .error "map requires value_type"
      | value => TypeExpr.map <$> value.type
    else if name == "ref" then
      if target == [] then .error "ref requires target" else .ok (.ref ns target)
    else if name == [] then .error "missing type name"
    else parseText name

end WrittenType

/-! ## Models -/

/-- A field of a struct, a virtual or an inline payload. -/
structure FieldEntry where
  name : Text := []
  type : WrittenType := .absent
  doc : Text := []
  attributes : List (Text × Text) := []
  required : Bool := false
  deriving Inhabited

/-- A variant of an enum. -/
structure VariantEntry where
  name : Text := []
  payload : WrittenType := .absent
  /-- The fields of an inline payload; a list without entries is one too. -/
  fields : Option (List (Option FieldEntry)) := none
  doc : Text := []
  deriving Inhabited

/-- A named constant. -/
structure ConstEntry where
  name : Text := []
  /-- The constant, null if there is none. -/
  value : Value := .null
  doc : Text := []
  deriving Inhabited

/-- What a model is, with the parts of all kinds of models. -/
structure ModelType where
  /-- The kind of the model. -/
  name : Text := []
  extend : Text := []
  fields : List (Option FieldEntry) := []
  variants : List (Option VariantEntry) := []
  tagKey : Text := []
  payloadKey : Text := []
  inner : WrittenType := .absent
  valueType : Text := []
  values : List (Option ConstEntry) := []
  deriving Inhabited

/-- A model. -/
structure ModelEntry where
  name : Text := []
  type : ModelType := {}
  doc : Text := []
  attributes : List (Text × Text) := []
  deriving Inhabited

/-- An include of another file. -/
structure IncludeEntry where
  path : Text := []
  ns : Text := []
  attributes : List (Text × Text) := []
  deriving Inhabited

/-- A spec file. -/
structure SpecFile where
  doc : Text := []
  includes : List (Option IncludeEntry) := []
  settings : List (Text × List (Text × Text)) := []
  models : List (Option ModelEntry) := []
  deriving Inhabited

/-- The absolute paths a spec file includes. -/
def SpecFile.absoluteIncludes (f : SpecFile) : List Text :=
  (f.includes.filterMap fun i => i.map (·.path)).filter Path.isAbs

end WireModel
