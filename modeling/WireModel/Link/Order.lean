import WireModel.Graph.Placing
import WireModel.Graph.Tarjan
import WireModel.Link.Resolve

/-!
# Orders made by loops

The order of the modules of a graph and the order in which the declarations of a module are emitted,
as loops make them that place one module, or one group of declarations, after the other.
-/

namespace WireModel

/-- The loop over modules that are sorted by their paths ends with an order: at every pass the first
module is placed whose dependencies are. -/
def DependencyOrder (w : Workspace) (sorted order : List Nat) : Prop :=
  PlacesAll (dependencies w) sorted [] order

/-- The place where a group of declarations is declared, which is that of its first member. -/
def declaredAt (c : List DeclId) : Nat := (c.head?.map (·.index)).getD 0

/-- The order of the declarations of a module: at every pass the group is placed that is declared
first of those that refer to placed groups only. -/
def emissionOrder? (w : Workspace) (m : Nat) : Option (List DeclId) := do
  let groups ← (w.refGraph m).tarjan?
  let needs (c : List DeclId) : List (List DeclId) :=
    ((c.flatMap w.localRefs).filterMap fun d => groups.find? (·.contains d)).filter (· != c)
  let order ← placeEach? declaredAt needs groups
  return order.flatten

end WireModel
