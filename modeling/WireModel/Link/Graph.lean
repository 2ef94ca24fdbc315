import WireModel.Spec.Module
import WireModel.Graph.Component
import WireModel.Graph.Schedule

/-!
# Linked modules

What linking finds out about a module beyond its bindings: the modules it depends on, the order in
which its declarations are emitted, which of them refer to each other in cycles, and which members
hold a declaration by value on such a cycle.
-/

namespace WireModel

/-- A linked module. -/
structure LinkedModule where
  /-- The number of the module in the workspace. -/
  id : Nat
  /-- The imported modules, one for each path, in the order of their paths. -/
  deps : List Nat
  /-- The declarations in emission order: each comes after the declarations of the module it refers
  to, except on cycles. -/
  order : List DeclId
  /-- The groups of declarations that refer to each other, in the order of their numbers. -/
  components : List (List DeclId)
  /-- The declarations that refer to themselves, directly or through others. -/
  recursive : List DeclId
  /-- The members that hold a reference on a cycle of references held by value. -/
  indirect : List (DeclId × Text)
  deriving Inhabited

namespace LinkedModule

/-- The number of the group of a declaration. -/
def component? (m : LinkedModule) (d : DeclId) : Option Nat :=
  m.components.findIdx? (·.contains d)

/-- Whether a declaration refers to itself, directly or through others. -/
def isRecursive (m : LinkedModule) (d : DeclId) : Bool := m.recursive.contains d

/-- Whether a member holds a reference on a cycle of references held by value, so that a target
language with sized aggregates needs an indirection there. -/
def isIndirect (m : LinkedModule) (d : DeclId) (member : Text) : Bool :=
  m.indirect.contains (d, member)

end LinkedModule

/-- A compilation in which every reference is bound. -/
structure ModuleGraph where
  workspace : Workspace
  /-- The modules, each after those it imports, otherwise in the order of their paths. -/
  modules : List LinkedModule
  deriving Inhabited

namespace ModuleGraph

/-- The path of a linked module. -/
def path (g : ModuleGraph) (m : LinkedModule) : Text :=
  match g.workspace[m.id]? with
  | some mod => mod.path
  | none => []

/-- The module with a path. -/
def module? (g : ModuleGraph) (path : Text) : Option LinkedModule :=
  g.modules.find? fun m => g.path m == path

/-- The module that owns a declaration. -/
def moduleOf? (g : ModuleGraph) (d : DeclId) : Option LinkedModule :=
  g.modules.find? (·.id == d.module)

/-- The dependency an import alias of a module stands for. -/
def dep? (g : ModuleGraph) (m : LinkedModule) (ns : Text) : Option Nat := do
  let mod ← g.workspace[m.id]?
  let pathOf (id : Nat) : Option Text := g.workspace[id]?.map (·.path)
  (mod.imports.filter (·.ns == ns)).findSome? fun i =>
    m.deps.find? fun d => pathOf d == some i.path

end ModuleGraph

/-! ## References between declarations -/

namespace Workspace

variable (w : Workspace)

/-- The declarations of its own module that a declaration refers to: the one it extends, and the
targets of all references in its types. -/
def localRefs (id : DeclId) : List DeclId :=
  match w.decl? id with
  | none => []
  | some d => d.base.toList ++ (d.types.flatMap (·.targets)).filter (·.module == id.module)

/-- The references a declaration holds by value, with the members that hold them: bare references
and optional bare references, not those inside lists and maps. -/
def inlineRefs (id : DeclId) : List (Text × DeclId) :=
  match w.decl? id with
  | none => []
  | some d =>
    let held : List (Text × TypeExpr) :=
      match d.body with
      | .struct _ => (w.allFields d).map fun f => (f.name, f.type)
      | .virtual _ => []
      | _ => d.members
    held.filterMap fun m => m.2.unwrap.target?.map fun t => (m.1, t)

/-- The newtype that a newtype wraps directly. -/
def wrapsNewtype (id : DeclId) : List DeclId :=
  match w.decl? id with
  | none => []
  | some d =>
    match d.body with
    | .newtype t => t.target?.toList.filter fun t => (w.decl? t).any (·.kind == .newtype)
    | _ => []

/-- The graph of references among the declarations of a module. -/
def refGraph (m : Nat) : Digraph DeclId := ⟨w.declIds m, w.localRefs⟩

/-- The graph of references held by value among the declarations of a module. -/
def inlineGraph (m : Nat) : Digraph DeclId := ⟨w.declIds m, fun d => (w.inlineRefs d).map (·.2)⟩

/-- The graph of newtypes of a module that wrap each other. -/
def wrapGraph (m : Nat) : Digraph DeclId :=
  ⟨(w.declIds m).filter fun d => (w.decl? d).any (·.kind == .newtype), w.wrapsNewtype⟩

end Workspace

/-! ## Analysis -/

/-- The order of the groups of a module: a group goes after the groups it refers to, and among those
that can go the one that is declared first. -/
def orderComponents (w : Workspace) (m : Nat) (components : List (List DeclId)) :
    List (List DeclId) :=
  let ids := w.declIds m
  let groupOf (d : DeclId) : Option (List DeclId) := components.find? (·.contains d)
  let ranked := ids.filterMap fun d => components.find? (·.head? == some d)
  let needs (c : List DeclId) : List (List DeclId) :=
    ((c.flatMap w.localRefs).filterMap groupOf).filter (· != c)
  schedule needs [] ranked

/-- A module with what linking finds out about it. -/
def analyze (w : Workspace) (m : Nat) (deps : List Nat) : LinkedModule :=
  let refs := w.refGraph m
  let components := refs.components
  let inline := w.inlineGraph m
  let cycles := inline.components.filter inline.isCyclic
  { id := m
    deps
    order := (orderComponents w m components).flatten
    components
    recursive := (components.filter refs.isCyclic).flatten
    indirect := cycles.flatMap fun c => c.flatMap fun d =>
      ((w.inlineRefs d).filter fun r => c.contains r.2).map fun r => (d, r.1) }

end WireModel
