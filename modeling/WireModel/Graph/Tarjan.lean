import WireModel.Graph.Reach

/-!
# Components by one search

Tarjan's algorithm finds the components of a graph in one depth-first search. Every node is given a
number when it is visited and goes on a stack, where it stays until its component is complete. The
lowlink of a node is the smallest number that is found to be reached from it; a node whose lowlink
is its own number when all its edges are done has its component above it on the stack.

The calls that are under way are kept as a list of what there is still to do. A call for a node
looks at its edges in order; an edge to a new node is a call for that node, after which the lowlink
goes down to that of the new node.
-/

namespace WireModel.Digraph

/-- The state of the search. -/
structure Search (α : Type) where
  /-- The number for the next node. -/
  index : Nat := 0
  /-- The nodes visited that are in no component yet, the last one first. -/
  stack : List α := []
  /-- The numbers of the nodes visited. -/
  indices : α → Option Nat := fun _ => none
  /-- The smallest numbers that are found to be reached. -/
  lowlink : α → Nat := fun _ => 0
  onStack : α → Bool := fun _ => false
  /-- The components found so far. -/
  sccs : List (List α) := []

/-- What there is still to do. -/
inductive Task (α : Type) where
  /-- Visit a node, unless it was visited. -/
  | call (v : α)
  /-- Look at an edge. -/
  | edge (v w : α)
  /-- Take over the lowlink of a node that an edge has led to. -/
  | back (v w : α)
  /-- Complete the component of a node if it starts one. -/
  | close (v : α)

/-- An edge leads to two more things to do at most. -/
def Task.weight {α : Type} : Task α → Nat
  | edge _ _ => 3
  | _ => 1

/-- How much there is still to do. -/
def Task.weights {α : Type} : List (Task α) → Nat
  | [] => 0
  | t :: ts => t.weight + weights ts

namespace Search

variable {α : Type} [DecidableEq α]

/-- A node is visited. -/
def visit (s : Search α) (v : α) : Search α :=
  { s with
    index := s.index + 1
    stack := v :: s.stack
    indices := fun x => if x = v then some s.index else s.indices x
    lowlink := fun x => if x = v then s.index else s.lowlink x
    onStack := fun x => if x = v then true else s.onStack x }

/-- The lowlink of a node goes down to a number, if that is smaller. -/
def lower (s : Search α) (v : α) (n : Nat) : Search α :=
  { s with lowlink := fun x => if x = v then min (s.lowlink v) n else s.lowlink x }

/-- The nodes of a stack down to a given one, and the rest of the stack; nothing if the node is not
there. -/
def popTo? (v : α) : List α → Option (List α × List α)
  | [] => none
  | w :: stack =>
    if w = v then some ([w], stack) else (popTo? v stack).map fun (scc, rest) => (w :: scc, rest)

/-- A component is complete: its members leave the stack, and are put in the order of the nodes. -/
def complete (nodes : List α) (s : Search α) (scc stack : List α) : Search α :=
  { s with
    stack
    onStack := fun x => if x ∈ scc then false else s.onStack x
    sccs := s.sccs ++ [scc.mergeSort fun a b => nodes.idxOf a ≤ nodes.idxOf b] }

/-- A node whose edges are done: if it starts a component, that is complete. -/
def close? (nodes : List α) (s : Search α) (v : α) : Option (Search α) :=
  if s.indices v = some (s.lowlink v) then
    (popTo? v s.stack).map fun (scc, stack) => s.complete nodes scc stack
  else some s

/-- Closing a node visits nothing. -/
theorem indices_of_close? {nodes : List α} {s s' : Search α} {v : α}
    (h : s.close? nodes v = some s') : s'.indices = s.indices := by
  rw [close?] at h
  split at h
  · obtain ⟨_, -, rfl⟩ := Option.map_eq_some_iff.mp h
    rfl
  · rw [Option.some.inj h]

end Search

variable {α : Type} [DecidableEq α] (g : Digraph α)

/-- The number of nodes that were not visited. -/
def unvisited (s : Search α) : Nat := (g.nodes.filter fun v => (s.indices v).isNone).length

/-- Visiting a new node leaves fewer. -/
theorem unvisited_visit_lt {s : Search α} {v : α} (hv : v ∈ g.nodes) (hs : s.indices v = none) :
    g.unvisited (s.visit v) < g.unvisited s :=
  length_filter_lt_filter (by intro x hx; simp [Search.visit] at hx; grind) (by simp [hs])
    (by simp [Search.visit]) hv

/-- The search, from a state with things still to do: the components, or nothing if it takes a node
off an empty stack. -/
def search (s : Search α) (todo : List (Task α)) : Option (List (List α)) :=
  match todo with
  | [] => some s.sccs
  | .call v :: rest =>
    if h : v ∈ g.nodes ∧ s.indices v = none then
      search (s.visit v) ((g.edges v).map (.edge v) ++ .close v :: rest)
    else search s rest
  | .edge v w :: rest =>
    if w ∈ g.nodes then
      match s.indices w with
      | none => search s (.call w :: .back v w :: rest)
      | some n => if s.onStack w then search (s.lower v n) rest else search s rest
    else search s rest
  | .back v w :: rest => search (s.lower v (s.lowlink w)) rest
  | .close v :: rest =>
    match _h : s.close? g.nodes v with
    | none => none
    | some s' => search s' rest
termination_by (g.unvisited s, Task.weights todo)
decreasing_by
  · exact Prod.Lex.left _ _ (g.unvisited_visit_lt h.1 h.2)
  · exact Prod.Lex.right _ (by simp [Task.weights, Task.weight])
  · exact Prod.Lex.right _ (by simp [Task.weights, Task.weight]; omega)
  · exact Prod.Lex.right _ (by simp [Task.weights, Task.weight])
  · exact Prod.Lex.right _ (by simp [Task.weights, Task.weight])
  · exact Prod.Lex.right _ (by simp [Task.weights, Task.weight])
  · exact Prod.Lex.right _ (by simp [Task.weights, Task.weight])
  · rw [unvisited, Search.indices_of_close? _h]
    exact Prod.Lex.right _ (by simp [Task.weights, Task.weight])

/-- The components of the graph as one search through its nodes finds them. -/
def tarjan? : Option (List (List α)) := g.search {} (g.nodes.map .call)

end WireModel.Digraph
