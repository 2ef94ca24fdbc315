import WireModel.Encoding.Failures

/-!
# Collecting failures

The failures of a rule as a search collects them that goes from rules into declarations and from
declarations into the rules of their members, and into no declaration a second time.

The calls that are under way are kept as a list of what there is still to do, the innermost first.
-/

namespace WireModel

/-- What a search has found so far. -/
structure Collection where
  failures : List Failure := []
  /-- The declarations that the search has gone into. -/
  seen : List DeclId := []
  deriving DecidableEq, Inhabited

namespace Collection

/-- What there is still to do. -/
inductive Task where
  /-- Note some failures. -/
  | found (ks : List Failure)
  /-- Look at a rule. -/
  | rule (r : Rule)
  /-- Look at a declaration, unless the search has gone into it. -/
  | decl (d : DeclId)

/-- What a rule leads to next weighs less than the rule. -/
def Task.ruleWeight : Rule → Nat
  | .sequence e | .mapping e | .nullable e => ruleWeight e + 2
  | _ => 3

def Task.weight : Task → Nat
  | found _ => 1
  | rule r => ruleWeight r
  | decl _ => 2

/-- How much there is still to do. -/
def Task.weights : List Task → Nat
  | [] => 0
  | t :: ts => t.weight + weights ts

theorem Task.weights_append (ts ts' : List Task) :
    weights (ts ++ ts') = weights ts + weights ts' := by
  induction ts with
  | nil => simp [weights]
  | cons t ts ih => simp [weights, ih, Nat.add_assoc]

/-- Failures are found. -/
def add (c : Collection) (ks : List Failure) : Collection := { c with failures := ks ++ c.failures }

/-- The search goes into a declaration. -/
def enter (c : Collection) (d : DeclId) : Collection := { c with seen := d :: c.seen }

/-- The failures found, in the order of the taxonomy. -/
def list (c : Collection) : List Failure := Failure.taxonomy.filter c.failures.contains

end Collection

open Collection (Task)

/-- What there is to do for a rule. -/
def Rule.tasks : Rule → List Task
  | identity k _ =>
    .found [.typeMismatch] ::
      if k == .int || k == .float then [.found [.malformedNumeric]] else []
  | decimalString _ => [.found [.typeMismatch, .malformedNumeric]]
  | byteSequence => [.found [.typeMismatch, .malformedBytes]]
  | sequence e | mapping e => [.found [.typeMismatch], .rule e]
  | nullable e => [.rule e]
  | record d | tagged d | transparent d => [.decl d]
  | notEncodable | passthrough => []

/-- What there is to do for a field. -/
def FieldRule.tasks (f : FieldRule) : List Task :=
  if f.field.required then [.found [.missingField], .rule f.rule] else [.rule f.rule]

/-- What there is to do for the rule of a declaration. -/
def DeclRule.tasks : DeclRule → List Task
  | record fs => .found [.typeMismatch] :: fs.flatMap FieldRule.tasks
  | tagged _ _ vs =>
    .found [.typeMismatch, .missingField, .unknownVariant] ::
      (vs.filterMap (·.rule)).map .rule
  | transparent r => [.rule r]
  | notEncodable => []

theorem Rule.weights_tasks_lt (r : Rule) : Task.weights r.tasks < (Task.rule r).weight := by
  cases r with
  | identity k width =>
    rw [tasks]
    split <;> simp [Task.weights, Task.weight, Task.ruleWeight]
  | _ => simp [tasks, Task.weights, Task.weight, Task.ruleWeight, Nat.add_comm 1]

namespace Workspace

variable (w : Workspace)

/-- There is nothing to do for what is no declaration. -/
theorem tasks_ruleAt_of_notMem {d : DeclId} (hd : d ∉ w.allIds) : (w.ruleAt d).tasks = [] := by
  have hnone : w.decl? d = none := by
    refine Option.eq_none_iff_forall_ne_some.mpr fun e he => hd ?_
    simp only [decl?, allIds, declIds, List.mem_flatMap, List.mem_range] at he ⊢
    refine ⟨d.module, ?_, ?_⟩ <;> grind
  rw [ruleAt, hnone, DeclRule.tasks]

/-- Going into a new declaration leaves fewer to see, or nothing to do for it. -/
theorem enter_lt {c : Collection} {d : DeclId} {rest : List Task} (hd : d ∉ c.seen) :
    Prod.Lex (· < ·) (· < ·)
      (w.valueGraph.unseen (c.enter d).seen, Task.weights ((w.ruleAt d).tasks ++ rest))
      (w.valueGraph.unseen c.seen, Task.weights (Task.decl d :: rest)) := by
  by_cases hmem : d ∈ w.valueGraph.nodes
  · exact Prod.Lex.left _ _ (w.valueGraph.unseen_cons_lt hmem hd)
  · rw [w.tasks_ruleAt_of_notMem hmem]
    refine Prod.Lex.right' _ (length_filter_le_filter ?_ _) (by simp [Task.weights, Task.weight])
    intro x hx
    simp_all [Collection.enter]

/-- The search, from what it has found so far, with things still to do. -/
def collect (c : Collection) (todo : List Task) : Collection :=
  match todo with
  | [] => c
  | .found ks :: rest => collect (c.add ks) rest
  | .rule r :: rest => collect c (r.tasks ++ rest)
  | .decl d :: rest =>
    if d ∈ c.seen then collect c rest
    else collect (c.enter d) ((w.ruleAt d).tasks ++ rest)
termination_by (w.valueGraph.unseen c.seen, Task.weights todo)
decreasing_by
  · exact Prod.Lex.right _ (by simp [Task.weights, Task.weight])
  · exact Prod.Lex.right _ (by
      have := r.weights_tasks_lt
      simp only [Task.weights_append, Task.weights]
      omega)
  · exact Prod.Lex.right _ (by simp [Task.weights, Task.weight])
  · exact w.enter_lt ‹_›

/-- The failures of a rule, by a search. -/
def collectFailures (r : Rule) : List Failure := (w.collect {} [.rule r]).list

end Workspace

end WireModel
