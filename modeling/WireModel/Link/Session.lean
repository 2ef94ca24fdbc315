import WireModel.Link.Resolve

/-!
# Sessions

The modules of a program live on while declarations and imports are added to them, names are looked
up, and some of them are linked, again and again and together with different others. Bindings and
name indexes stay in the modules all the time.

In a session linking finds declarations by the indexes, as every look-up does, and leaves the index
of each module that it looked into.
-/

namespace WireModel

namespace Module

/-- The position of the declaration with a name, found by the index. -/
def findByIndex (m : Module) (name : Text) : Option Nat := (m.lookup name).1

/-- The module with its index, which is built if there is none yet. -/
def indexed (m : Module) : Module := (m.lookup []).2

end Module

/-! ## Linking by the indexes -/

/-- The modules in which names are looked up when the references of a module are bound: its own for
each declaration that extends another one, and those its references look into. -/
def lookedInto (w : Workspace) (id : Nat) : List Nat :=
  match w[id]? with
  | none => []
  | some m =>
    m.decls.flatMap fun d =>
      (if d.extend == [] then [] else [id]) ++
        d.members.flatMap fun x => x.2.refs.filterMap fun r => r.bind (scopeOf m id)

/-- The workspace with the indexes of some modules built. -/
def buildIndexes (w : Workspace) (ids : List Nat) : Workspace :=
  ids.foldl (fun w id => w.update id Module.indexed) w

/-- The workspace with the references of some modules bound by the indexes, which are built on the
way, and the errors found. -/
def bindAllRefsIndexed (w : Workspace) (ids : List Nat) : Workspace × List CompileError :=
  let (bound, errs) := bindAllRefsBy Module.findByIndex w ids
  (buildIndexes bound (ids.flatMap (lookedInto w)), errs)

/-- Links some modules of a workspace by their indexes. The workspace that comes back holds the
bindings made and the indexes built, also when linking fails. -/
def resolveIndexed (w : Workspace) (ids : List Nat) : Workspace × Except LinkFailure ModuleGraph :=
  resolveWith bindAllRefsIndexed w ids

/-! ## Calls -/

/-- A call on the modules of a workspace. -/
inductive Call where
  /-- Declarations are added to a module. -/
  | add (id : Nat) (decls : List Decl)
  /-- An import is added to a module. -/
  | addImport (id : Nat) (ns path : Text)
  /-- A name is looked up in a module. -/
  | lookup (id : Nat) (name : Text)
  /-- A module is validated, which only reads it. -/
  | validate (id : Nat)
  /-- Some modules are linked, with success or not. -/
  | resolve (ids : List Nat)

namespace Workspace

/-- The workspace after a call. -/
def perform (w : Workspace) : Call → Workspace
  | .add id ds => w.update id (·.add ds)
  | .addImport id ns path => w.update id (·.addImport ns path)
  | .lookup id name => w.update id fun m => (m.lookup name).2
  | .validate _ => w
  | .resolve ids => (resolveIndexed w ids).1

/-- The workspace after calls, one after the other. -/
def performAll (w : Workspace) (calls : List Call) : Workspace := calls.foldl perform w

end Workspace

end WireModel
