import WireModel.Text.Basic

/-!
# Types

A type of a field, payload or newtype as it is written: a chain of nodes, outermost first. A
composite node (list, map, optional) is followed by the type of its items, a reference ends the
chain with the name of a declaration.

The chain may hold anything a caller puts into it: kinds nobody knows, scalars followed by an item
type, composites followed by nothing. Which chains are well formed is decided by validation
(`WireModel.Spec.Validate`), and everything in this file is total on all of them.
-/

namespace WireModel

/-- Where a declaration stands: the number of its module in a workspace, and its position among
the declarations of that module. -/
structure DeclId where
  module : Nat
  index : Nat
  deriving DecidableEq, Inhabited

/-- What a node of a type is. -/
inductive Kind where
  | invalid
  | bool
  | int
  | float
  | bigint
  | decimal
  | string
  | bytes
  | json
  | list
  | map
  | optional
  | ref
  /-- A kind with a code past the known ones. -/
  | unknown (code : Nat)
  deriving DecidableEq, Inhabited

namespace Kind

/-- The kind with a code. -/
def ofCode : Nat → Kind
  | 0 => invalid
  | 1 => bool
  | 2 => int
  | 3 => float
  | 4 => bigint
  | 5 => decimal
  | 6 => string
  | 7 => bytes
  | 8 => json
  | 9 => list
  | 10 => map
  | 11 => optional
  | 12 => ref
  | n => unknown n

/-- The code of a kind. -/
def code : Kind → Nat
  | invalid => 0
  | bool => 1
  | int => 2
  | float => 3
  | bigint => 4
  | decimal => 5
  | string => 6
  | bytes => 7
  | json => 8
  | list => 9
  | map => 10
  | optional => 11
  | ref => 12
  | unknown n => n

/-- The name of a kind. -/
def name : Kind → Text
  | invalid => "invalid"
  | bool => "bool"
  | int => "int"
  | float => "f64"
  | bigint => "bigint"
  | decimal => "decimal"
  | string => "string"
  | bytes => "bytes"
  | json => "json"
  | list => "list"
  | map => "map"
  | optional => "optional"
  | ref => "ref"
  | unknown n => "kind(" ++ Text.ofNat n ++ ")"

/-- Whether types of the kind exist. -/
def isValid : Kind → Bool
  | invalid => false
  | unknown _ => false
  | _ => true

/-- Whether types of the kind have no item type. -/
def isScalar : Kind → Bool
  | bool | int | float | bigint | decimal | string | bytes | json => true
  | _ => false

end Kind

/-- A reference to a declaration, by its name and, for a declaration of another module, the alias
under which that module is imported. -/
structure Ref where
  /-- The import alias, empty for a declaration of the same module. -/
  ns : Text
  name : Text
  /-- The declaration the reference is bound to, none until its module is linked. -/
  target : Option DeclId := none
  deriving DecidableEq, Inhabited

namespace Ref

/-- The reference as it is written. -/
def toText (r : Ref) : Text := if r.ns == [] then r.name else r.ns ++ "." ++ r.name

end Ref

/-- A type, as a chain of nodes. -/
inductive TypeExpr where
  /-- No type is given. -/
  | missing
  /-- A node, with its bit width if it is an integer, its reference if it is one, and the type of
  its items. -/
  | node (kind : Kind) (width : Int) (ref : Option Ref) (elem : TypeExpr)
  deriving DecidableEq, Inhabited

namespace TypeExpr

/-! ## Building types -/

/-- A type without items. -/
def scalar (k : Kind) : TypeExpr := node k 0 none missing

/-- The type of signed integers of a bit width. -/
def int (width : Int) : TypeExpr := node .int width none missing

/-- The type of 64 bit floating point numbers. -/
def float : TypeExpr := node .float 64 none missing

/-- The type of lists. -/
def list (elem : TypeExpr) : TypeExpr := node .list 0 none elem

/-- The type of mappings with text keys. -/
def map (elem : TypeExpr) : TypeExpr := node .map 0 none elem

/-- The type of values that may be absent. -/
def optional (elem : TypeExpr) : TypeExpr := node .optional 0 none elem

/-- A reference to a declaration. -/
def ref (ns name : Text) : TypeExpr := node .ref 0 (some { ns, name }) missing

/-! ## Looking at types -/

/-- The kind of the outermost node. -/
def kind? : TypeExpr → Option Kind
  | missing => none
  | node k _ _ _ => some k

/-- Whether the outermost node is an optional. -/
def isOptional (t : TypeExpr) : Bool := t.kind? == some .optional

/-- The declaration a reference is bound to. -/
def target? : TypeExpr → Option DeclId
  | node .ref _ (some r) _ => r.target
  | _ => none

/-- The type without one level of optionality. -/
def unwrap : TypeExpr → TypeExpr
  | node .optional _ _ elem => elem
  | t => t

/-- The type and all types nested in it, outermost first. -/
def nodes : TypeExpr → List TypeExpr
  | missing => []
  | node k w r elem => node k w r elem :: elem.nodes

/-- The references of a type, outermost first. A reference without a name is `none`. -/
def refs : TypeExpr → List (Option Ref)
  | missing => []
  | node .ref _ r elem => r :: elem.refs
  | node _ _ _ elem => elem.refs

/-- The declarations the references of a type are bound to, outermost first. -/
def targets (t : TypeExpr) : List DeclId := t.nodes.filterMap target?

/-- The type as it is written. -/
def toText : TypeExpr → Text
  | missing => "<nil>"
  | node k w r elem =>
    match k with
    | .int => "i" ++ Text.ofInt w
    | .list | .map | .optional => k.name ++ "[" ++ elem.toText ++ "]"
    | .ref =>
      match r with
      | some r => r.toText
      | none => "ref[?]"
    | _ => k.name

end TypeExpr

end WireModel
