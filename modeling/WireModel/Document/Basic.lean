import WireModel.Text.Basic

/-!
# Documents

What a spec file or a JSON text is after its notation is read: scalars, lists and objects, with
the line each of them stands in where lines matter, and zero elsewhere. A scalar keeps the text it was written with beside what it was
recognised as, because some readers want the one and some the other. Keys of an object may be any
document, and may repeat; what that means is up to who reads the object.
-/

namespace WireModel

/-- What a scalar was recognised as. -/
inductive ScalarKind where
  | null
  | bool (b : Bool)
  /-- A whole number of any size. -/
  | int (n : Int)
  /-- Any other number. -/
  | float
  | timestamp
  /-- The key of what is merged into an object. -/
  | merge
  | text
  deriving DecidableEq, Inhabited

/-- A document. -/
inductive Doc where
  /-- A scalar with the text it stands for. -/
  | scalar (kind : ScalarKind) (source : Text) (line : Nat)
  | list (items : List Doc) (line : Nat)
  | object (entries : List (Doc × Doc)) (line : Nat)
  deriving Inhabited

namespace Doc

/-- The line a document starts in. -/
def line : Doc → Nat
  | scalar _ _ n => n
  | list _ n => n
  | object _ n => n

/-- Whether a document is a null. -/
def isNull : Doc → Bool
  | scalar .null _ _ => true
  | _ => false

/-- Whether two keys are taken for the same: scalars by their spelling, all else by their form. -/
def sameKey : Doc → Doc → Bool
  | .scalar _ a _, .scalar _ b _ => a == b
  | .list _ _, .list _ _ => true
  | .object _ _, .object _ _ => true
  | _, _ => false

/-- Whether a key comes twice. -/
def repeatsKey : List (Doc × Doc) → Bool
  | [] => false
  | (k, _) :: es => es.any (fun e => sameKey k e.1) || repeatsKey es

end Doc

end WireModel
