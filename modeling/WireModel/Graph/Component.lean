import WireModel.Graph.Reach

/-!
# Components and cycles

Two nodes belong to one component when each reaches the other. The components of a graph are
listed in the order in which a depth-first walk leaves them: the walk takes the nodes, and the
successors of a node, in their given order, and a component is left with its last node. So a
component comes after every component it points to. The members of a component keep the order of
the nodes.
-/

namespace WireModel.Digraph

variable {α : Type} [DecidableEq α] (g : Digraph α)

/-! ## The order of leaving -/

/-- What a depth-first walk has still to do. -/
inductive Visit (α : Type) where
  | enter (v : α)
  | leave (v : α)

/-- A depth-first walk: the nodes in the order in which it leaves them, after those of `left`,
which is in reverse. -/
def walk (seen left : List α) (todo : List (Visit α)) : List α :=
  match todo with
  | [] => left.reverse
  | .leave v :: rest => walk seen (v :: left) rest
  | .enter v :: rest =>
    if h : v ∈ g.nodes ∧ v ∉ seen then
      walk (v :: seen) left ((g.edges v).map .enter ++ .leave v :: rest)
    else walk seen left rest
termination_by (g.unseen seen, todo.length)
decreasing_by
  · exact Prod.Lex.right _ (by simp)
  · exact Prod.Lex.left _ _ (g.unseen_cons_lt h.1 h.2)
  · exact Prod.Lex.right _ (by simp)

/-- The nodes in the order in which a depth-first walk leaves them. -/
def leaving : List α := g.walk [] [] (g.nodes.map .enter)

/-! ## Components -/

/-- The nodes that no later node of the list is connected with. -/
def lastOfEach (connected : α → α → Bool) : List α → List α
  | [] => []
  | v :: rest =>
    if rest.any (connected v) then lastOfEach connected rest else v :: lastOfEach connected rest

/-- The components of the graph, in the order in which a depth-first walk leaves them. -/
def components : List (List α) :=
  let table := g.nodes.map fun v => (v, g.reach v)
  let reaches (u v : α) : Bool :=
    match table.find? (·.1 == u) with
    | some (_, vs) => vs.contains v
    | none => false
  let connected (u v : α) : Bool := u == v || (reaches u v && reaches v u)
  (lastOfEach connected g.leaving).map fun v => g.nodes.filter (connected v)

/-- Whether a component is a cycle: it has several members, or its only one points to itself. -/
def isCyclic : List α → Bool
  | [] => false
  | [v] => (g.edges v).contains v
  | _ => true

/-! ## A cycle to show -/

/-- The number of members of a component that a search has not seen. -/
abbrev pending (inside seen : List α) : Nat := (⟨inside, g.edges⟩ : Digraph α).unseen seen

/-- A depth-first search for a way back to `start` inside a component. A frame is a node of the
current path with the successors still to try; a dead end is never entered again. -/
def searchCycle (start : α) (inside seen : List α) (frames : List (α × List α)) : List α :=
  match frames with
  | [] => [start]
  | (_, []) :: frames => searchCycle start inside seen frames
  | (v, w :: ws) :: frames =>
    if w = start then (start :: v :: frames.map (·.1)).reverse
    else if h : w ∈ inside ∧ w ∉ seen then
      searchCycle start inside (w :: seen) ((w, g.edges w) :: (v, ws) :: frames)
    else searchCycle start inside seen ((v, ws) :: frames)
termination_by (g.pending inside seen, frames.foldr (fun f n => f.2.length + 1 + n) 0)
decreasing_by
  · exact Prod.Lex.right _ (by simp)
  · exact Prod.Lex.left _ _ (unseen_cons_lt ⟨inside, g.edges⟩ h.1 h.2)
  · exact Prod.Lex.right _ (by simp)

/-- A path through a component that starts and ends with its first member. -/
def cyclePath : List α → List α
  | [] => []
  | start :: rest => g.searchCycle start (start :: rest) [start] [(start, g.edges start)]

end WireModel.Digraph
