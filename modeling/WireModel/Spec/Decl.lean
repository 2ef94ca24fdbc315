import WireModel.Spec.Type
import WireModel.Value.Basic

/-!
# Declarations

A declaration gives a name to a struct, a virtual struct, a tagged union, a newtype or a group of
constants. A struct may extend a virtual struct of its module, whose fields then come before its
own.
-/

namespace WireModel

/-- A field of a struct. -/
structure Field where
  name : Text
  type : TypeExpr
  required : Bool := false
  doc : Text := []
  attributes : List (Text × Text) := []
  deriving Inhabited

namespace Field

/-- The type of the field's value: a field that is not required is optional. -/
def effectiveType (f : Field) : TypeExpr :=
  if f.required || f.type == .missing || f.type.isOptional then f.type else .optional f.type

end Field

/-- A variant of a tagged union. A variant without payload type is void. -/
structure Variant where
  name : Text
  payload : TypeExpr := .missing
  doc : Text := []
  deriving Inhabited

namespace Variant

/-- Whether the variant carries no payload. -/
def isVoid (v : Variant) : Bool := v.payload == .missing

end Variant

/-- A named literal of a group of constants. -/
structure Const where
  name : Text
  value : Value
  doc : Text := []
  deriving Inhabited

/-- The kinds of declarations. -/
inductive DeclKind where
  | struct
  | virtual
  | union
  | newtype
  | consts
  /-- A kind with a code that means nothing. -/
  | unknown (code : Nat)
  deriving DecidableEq, Inhabited

namespace DeclKind

/-- The kind with a code. -/
def ofCode : Nat → DeclKind
  | 1 => struct
  | 2 => virtual
  | 3 => union
  | 4 => newtype
  | 5 => consts
  | n => unknown n

/-- The name of a kind, as spec files write it. -/
def name : DeclKind → Text
  | struct => "struct"
  | virtual => "virtual"
  | union => "enum"
  | newtype => "new_type"
  | consts => "const"
  | unknown _ => "invalid"

end DeclKind

/-- What a declaration declares. -/
inductive Body where
  /-- A record of fields, in declaration order. -/
  | struct (fields : List Field)
  /-- Fields that structs can take over; it has no values of its own. -/
  | virtual (fields : List Field)
  /-- One of several variants. The two texts are the keys of the encoded form, and empty for the
  usual ones. -/
  | union (variants : List Variant) (tag payload : Text)
  /-- A type under a new name. -/
  | newtype (wrapped : TypeExpr)
  /-- Constants of one scalar type. -/
  | consts (type : TypeExpr) (consts : List Const)
  /-- Something else, by the code of its kind. -/
  | unknown (code : Nat)
  deriving Inhabited

/-- A named declaration of a module. -/
structure Decl where
  name : Text
  body : Body
  doc : Text := []
  attributes : List (Text × Text) := []
  /-- The name of the virtual struct whose fields come first; empty for none. -/
  extend : Text := []
  /-- The declaration named by `extend`, once it is linked. -/
  base : Option DeclId := none
  deriving Inhabited

/-- The usual key of a union's discriminator. -/
def defaultTag : Text := "type"

/-- The usual key of a union's payload. -/
def defaultPayload : Text := "payload"

namespace Body

/-- The kind of a body. -/
def kind : Body → DeclKind
  | struct _ => .struct
  | virtual _ => .virtual
  | union _ _ _ => .union
  | newtype _ => .newtype
  | consts _ _ => .consts
  | unknown n => .unknown n

/-- The body of a kind with nothing in it. -/
def empty : DeclKind → Body
  | .struct => struct []
  | .virtual => virtual []
  | .union => union [] [] []
  | .newtype => newtype .missing
  | .consts => consts .missing []
  | .unknown n => unknown n

end Body

namespace Decl

/-- The kind of a declaration. -/
def kind (d : Decl) : DeclKind := d.body.kind

/-- The fields a struct or virtual struct declares itself. -/
def fields (d : Decl) : List Field :=
  match d.body with
  | .struct fs => fs
  | .virtual fs => fs
  | _ => []

/-- The variants of a union. -/
def variants (d : Decl) : List Variant :=
  match d.body with
  | .union vs _ _ => vs
  | _ => []

/-- The key of a union's discriminator. -/
def tagKey (d : Decl) : Text :=
  match d.body with
  | .union _ tag _ => if tag == [] then defaultTag else tag
  | _ => defaultTag

/-- The key of a union's payload. -/
def payloadKey (d : Decl) : Text :=
  match d.body with
  | .union _ _ payload => if payload == [] then defaultPayload else payload
  | _ => defaultPayload

/-- Whether values of the declaration exist. -/
def isInstantiable (d : Decl) : Bool :=
  match d.body with
  | .struct _ | .union _ _ _ | .newtype _ => true
  | _ => false

/-- The members that hold types, by name: fields, variants, or the nameless value of a newtype.
A void variant holds the missing type. -/
def members (d : Decl) : List (Text × TypeExpr) :=
  match d.body with
  | .struct fs | .virtual fs => fs.map fun f => (f.name, f.type)
  | .union vs _ _ => vs.map fun v => (v.name, v.payload)
  | .newtype t => [([], t)]
  | _ => []

/-- The types the declaration holds; a void variant holds none. -/
def types (d : Decl) : List TypeExpr :=
  match d.body with
  | .union vs _ _ => (vs.filter fun v => !v.isVoid).map (·.payload)
  | _ => d.members.map (·.2)

/-- The declaration with every member's type replaced. -/
def mapTypes (f : TypeExpr → TypeExpr) (d : Decl) : Decl :=
  { d with body :=
      match d.body with
      | .struct fs => .struct (fs.map fun x => { x with type := f x.type })
      | .virtual fs => .virtual (fs.map fun x => { x with type := f x.type })
      | .union vs tag payload => .union (vs.map fun x => { x with payload := f x.payload }) tag payload
      | .newtype t => .newtype (f t)
      | b => b }

end Decl

end WireModel
