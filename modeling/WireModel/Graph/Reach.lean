/-!
# Finite directed graphs and what they reach

A graph is a list of nodes and, for every node, the list of nodes it points to, in an order that
matters for reports. Edges may point outside of the nodes; such edges are not followed.

The search keeps the list of nodes it has seen, and every step either takes a node that was not
seen yet or shortens the list of nodes still to look at.
-/

namespace WireModel

/-- A narrower test passes no more elements. -/
theorem length_filter_le_filter {α : Type} {p q : α → Bool} (hpq : ∀ x, p x = true → q x = true)
    (l : List α) : (l.filter p).length ≤ (l.filter q).length := by
  induction l with
  | nil => simp
  | cons c l ih =>
    by_cases hc : p c = true
    · simp [hc, hpq c hc, ih]
    · by_cases hd : q c = true
      · simp [hc, hd]; omega
      · simp [hc, hd, ih]

/-- A narrower test passes fewer elements of a list that holds one it refuses. -/
theorem length_filter_lt_filter {α : Type} {p q : α → Bool} {a : α}
    (hpq : ∀ x, p x = true → q x = true) (hq : q a = true) (hp : p a = false) {l : List α}
    (h : a ∈ l) : (l.filter p).length < (l.filter q).length := by
  induction h with
  | head l =>
    have := length_filter_le_filter hpq l
    simp [hp, hq]; omega
  | tail c _ ih =>
    by_cases hc : p c = true
    · simp [hc, hpq c hc, ih]
    · by_cases hd : q c = true
      · simp [hc, hd]; omega
      · simp [hc, hd, ih]

/-- A finite directed graph. -/
structure Digraph (α : Type) where
  nodes : List α
  edges : α → List α

namespace Digraph

variable {α : Type} [DecidableEq α] (g : Digraph α)

/-- The number of nodes a search has not seen. -/
def unseen (seen : List α) : Nat := (g.nodes.filter fun v => !seen.contains v).length

/-- Taking a new node leaves fewer to see. -/
theorem unseen_cons_lt {seen : List α} {v : α} (hv : v ∈ g.nodes) (hs : v ∉ seen) :
    g.unseen (v :: seen) < g.unseen seen :=
  length_filter_lt_filter (by intro x hx; simp_all) (by simpa using hs) (by simp) hv

/-- The nodes seen, and all nodes that can be reached from `todo` without passing a node that was
seen before. -/
def closure (seen todo : List α) : List α :=
  match todo with
  | [] => seen
  | v :: rest =>
    if h : v ∈ g.nodes ∧ v ∉ seen then closure (v :: seen) (g.edges v ++ rest)
    else closure seen rest
termination_by (g.unseen seen, todo.length)
decreasing_by
  · exact Prod.Lex.left _ _ (g.unseen_cons_lt h.1 h.2)
  · exact Prod.Lex.right _ (by simp)

/-- The nodes that can be reached from a node in one step or more. -/
def reach (v : α) : List α := g.closure [] (g.edges v)

end Digraph

end WireModel
