import WireModel.Graph.Reach
import WireModel.Encoding.Rule

/-!
# Announced failures

Which decode failures a value of a rule can produce. A rule contributes failures of its own, and
hands on those of every declaration that can be reached from it; declarations that refer to each
other are looked at once.
-/

namespace WireModel

namespace Rule

/-- The failures of a rule, without those of the declaration it names. -/
def ownFailures : Rule → List Failure
  | identity k _ =>
    if k == .int || k == .float then [.typeMismatch, .malformedNumeric] else [.typeMismatch]
  | decimalString _ => [.typeMismatch, .malformedNumeric]
  | byteSequence => [.typeMismatch, .malformedBytes]
  | sequence e | mapping e => .typeMismatch :: e.ownFailures
  | nullable e => e.ownFailures
  | _ => []

/-- The declaration a rule names, at any depth. -/
def named? : Rule → Option DeclId
  | sequence e | mapping e | nullable e => e.named?
  | r => r.decl?

end Rule

namespace DeclRule

/-- The failures of a declaration, without those of the declarations its members name. -/
def ownFailures (r : DeclRule) : List Failure :=
  (match r with
    | record fs =>
      .typeMismatch :: (if fs.any (·.field.required) then [.missingField] else [])
    | tagged _ _ _ => [.typeMismatch, .missingField, .unknownVariant]
    | _ => []) ++
  r.memberRules.flatMap Rule.ownFailures

end DeclRule

namespace Workspace

variable (w : Workspace)

/-- The places of all declarations. -/
def allIds : List DeclId := (List.range w.length).flatMap w.declIds

/-- The rule of the declaration at a place. -/
def ruleAt (id : DeclId) : DeclRule :=
  match w.decl? id with
  | some d => declRule w d
  | none => .notEncodable

/-- The graph of declarations whose values hold values of each other. -/
def valueGraph : Digraph DeclId :=
  ⟨w.allIds, fun id => (w.ruleAt id).memberRules.filterMap Rule.named?⟩

/-- The failures of some rules' own, and of all declarations reached from `start`, in the order of
the taxonomy. -/
def failuresFrom (own : List Failure) (start : List DeclId) : List Failure :=
  let reached := w.valueGraph.closure [] start
  let found := own ++ reached.flatMap fun d => (w.ruleAt d).ownFailures
  Failure.taxonomy.filter found.contains

/-- The failures a value of a rule may produce. -/
def ruleFailures (r : Rule) : List Failure := w.failuresFrom r.ownFailures r.named?.toList

/-- The failures a value of a declaration may produce. -/
def declFailures (id : DeclId) : List Failure := w.failuresFrom [] [id]

end Workspace

end WireModel
