import Mathlib.Data.List.Find
import WireModel.Proofs.Graph.Cycle
import WireModel.Proofs.Graph.Schedule

/-!
# Equal graphs — edges count at nodes only

A search follows edges from node to node, so what a graph holds at other
places is never looked at. Two graphs with the same nodes and the same
edges at them have the same components, and show the same cycles. In the
same way a schedule asks for the needs of the things that it places and
of nothing else.
-/

namespace WireModel

namespace Digraph

variable {α : Type} {g h : Digraph α}

/-- **Two graphs are equal as far as they are looked at**: they have the
same nodes, and the same edges at every node. -/
structure Agrees (g h : Digraph α) : Prop where
  nodes : g.nodes = h.nodes
  edges : ∀ v ∈ g.nodes, g.edges v = h.edges v

variable [DecidableEq α]

section Searches

variable (e : g.Agrees h)

include e in
theorem Agrees.closure_eq (seen todo : List α) : g.closure seen todo = h.closure seen todo := by
  fun_induction closure g seen todo with
  | case1 seen => rw [closure]
  | case2 seen v rest hv ih =>
    rw [ih, e.edges v hv.1]
    conv_rhs => rw [closure, dif_pos ⟨e.nodes ▸ hv.1, hv.2⟩]
  | case3 seen v rest hv ih =>
    rw [ih]
    conv_rhs => rw [closure, dif_neg (e.nodes ▸ hv)]

include e in
theorem Agrees.reach_eq {v : α} (hv : v ∈ g.nodes) : g.reach v = h.reach v := by
  rw [reach, reach, e.closure_eq, e.edges v hv]

include e in
theorem Agrees.walk_eq (seen left : List α) (todo : List (Visit α)) :
    g.walk seen left todo = h.walk seen left todo := by
  fun_induction walk g seen left todo with
  | case1 seen left => rw [walk]
  | case2 seen left v rest ih => rw [ih]; conv_rhs => rw [walk]
  | case3 seen left v rest hv ih =>
    rw [enter_attach] at ih
    rw [ih, e.edges v hv.1]
    conv_rhs => rw [walk, dif_pos ⟨e.nodes ▸ hv.1, hv.2⟩]
  | case4 seen left v rest hv ih =>
    rw [ih]
    conv_rhs => rw [walk, dif_neg (e.nodes ▸ hv)]

include e in
theorem Agrees.connectedTest_eq : g.connectedTest = h.connectedTest := by
  have htable : g.nodes.map (fun v => (v, g.reach v)) = h.nodes.map fun v => (v, h.reach v) := by
    rw [← e.nodes]
    exact List.map_congr_left fun v hv => by rw [e.reach_eq hv]
  funext u v
  simp only [connectedTest, htable]

include e in
/-- **Equal graphs have the same components**, in the same order. -/
theorem Agrees.components_eq : g.components = h.components := by
  have hleaving : g.leaving = h.leaving := by rw [leaving, leaving, e.walk_eq, e.nodes]
  rw [Digraph.components_eq, Digraph.components_eq, hleaving, e.connectedTest_eq, e.nodes]

include e in
/-- The same of them are cycles. -/
theorem Agrees.isCyclic_eq {c : List α} (hc : c ⊆ g.nodes) : g.isCyclic c = h.isCyclic c := by
  match c with
  | [] => rfl
  | [v] => rw [isCyclic, isCyclic, e.edges v (hc (List.mem_singleton.mpr rfl))]
  | _ :: _ :: _ => rfl

include e in
theorem Agrees.searchCycle_eq (start : α) {inside : List α} (hin : inside ⊆ g.nodes)
    (seen : List α) (frames : List (α × List α)) :
    g.searchCycle start inside seen frames = h.searchCycle start inside seen frames := by
  fun_induction searchCycle g start inside seen frames with
  | case1 seen => rw [searchCycle]
  | case2 seen v frames ih => rw [ih]; conv_rhs => rw [searchCycle]
  | case3 seen v frames ws => rw [searchCycle, if_pos rfl]
  | case4 seen v w ws frames hne hw ih =>
    rw [ih, e.edges w (hin hw.1)]
    conv_rhs => rw [searchCycle, if_neg hne, dif_pos hw]
  | case5 seen v w ws frames hne hw ih =>
    rw [ih]
    conv_rhs => rw [searchCycle, if_neg hne, dif_neg hw]

include e in
/-- And they are shown by the same paths. -/
theorem Agrees.cyclePath_eq {c : List α} (hc : c ⊆ g.nodes) : g.cyclePath c = h.cyclePath c := by
  match c, hc with
  | [], _ => rfl
  | start :: rest, hc =>
    rw [cyclePath, cyclePath, e.searchCycle_eq start hc, e.edges start (hc List.mem_cons_self)]

end Searches

/-- The members of a component are nodes. -/
theorem subset_nodes_of_mem_components {c : List α} (hc : c ∈ g.components) : c ⊆ g.nodes := by
  obtain ⟨r, -, -, hmem⟩ := exists_of_mem_components hc
  exact fun v hv => ((hmem v).mp hv).1

/-- **Equal graphs have the same cycles.** -/
theorem Agrees.filter_isCyclic_eq (e : g.Agrees h) :
    g.components.filter g.isCyclic = h.components.filter h.isCyclic := by
  rw [← e.components_eq]
  exact List.filter_congr fun c hc => e.isCyclic_eq (subset_nodes_of_mem_components hc)

/-- And the same first one. -/
theorem Agrees.find?_isCyclic_eq (e : g.Agrees h) :
    g.components.find? g.isCyclic = h.components.find? h.isCyclic := by
  rw [← e.components_eq]
  exact List.find?_congr fun c hc => e.isCyclic_eq (subset_nodes_of_mem_components hc)

/-- The path that is shown for a cyclic component goes over its members. -/
theorem cyclePath_subset (hnd : g.nodes.Nodup) {c : List α} (hc : c ∈ g.components)
    (hcyc : g.isCyclic c = true) : g.cyclePath c ⊆ c := by
  cases c with
  | nil => exact fun v hv => hv
  | cons start rest =>
    obtain ⟨mid, hp, -, hmid, -⟩ := cyclePath_isCircle hnd hc hcyc
    rw [hp]
    intro v hv
    simp only [List.mem_cons, List.mem_append, List.not_mem_nil, or_false] at hv
    rcases hv with rfl | hv | rfl
    · exact List.mem_cons_self
    · exact hmid hv
    · exact List.mem_cons_self

/-- What is said of the members of a cycle, which depends on the nodes, is
the same for the paths that are shown for it. -/
theorem Agrees.map_cyclePath_eq (e : g.Agrees h) (hnd : g.nodes.Nodup) {c : List α}
    (hc : c ∈ g.components) (hcyc : g.isCyclic c = true) {β : Type} {f f' : α → β}
    (hf : ∀ v ∈ g.nodes, f v = f' v) : (g.cyclePath c).map f = (h.cyclePath c).map f' := by
  have hsub := subset_nodes_of_mem_components hc
  rw [← e.cyclePath_eq hsub]
  exact List.map_congr_left fun v hv => hf v (hsub (cyclePath_subset hnd hc hcyc hv))

/-- And for their first member. -/
theorem map_head?_eq {c : List α} (hc : c ∈ g.components) {β : Type} {f f' : α → β}
    (hf : ∀ v ∈ g.nodes, f v = f' v) : c.head?.map f = c.head?.map f' := by
  have hsub := subset_nodes_of_mem_components hc
  cases c with
  | nil => rfl
  | cons v c => exact congrArg some (hf v (hsub List.mem_cons_self))

end Digraph

variable {α : Type} [DecidableEq α]

/-- **A schedule depends on the needs of what is to be placed.** -/
theorem schedule_congr {needs needs' : α → List α} {placed todo : List α}
    (h : ∀ x ∈ todo, needs x = needs' x) :
    schedule needs placed todo = schedule needs' placed todo := by
  have hfind : ∀ {placed todo : List α}, (∀ x ∈ todo, needs x = needs' x) →
      todo.find? (fun x => (needs x).all placed.contains) =
        todo.find? fun x => (needs' x).all placed.contains :=
    fun h => List.find?_congr fun x hx => by rw [h x hx]
  fun_induction schedule needs placed todo with
  | case1 placed todo hnone =>
    rw [hfind h] at hnone
    rw [schedule]
    split
    next => rfl
    next hsome => rw [hnone] at hsome; cases hsome
  | case2 placed todo x hsome ih =>
    rw [ih fun y hy => h y (List.mem_of_mem_erase hy)]
    rw [hfind h] at hsome
    conv_rhs => rw [schedule]
    split
    next hnone => rw [hnone] at hsome; cases hsome
    next y hy =>
      rw [hsome, Option.some.injEq] at hy
      rw [hy]

/-- Only what is to be placed is placed. -/
theorem schedule_subset {needs : α → List α} {placed todo : List α} :
    schedule needs placed todo ⊆ todo := by
  fun_induction schedule needs placed todo with
  | case1 placed todo hnone => simp
  | case2 placed todo x hsome ih =>
    refine List.cons_subset.mpr ⟨List.mem_of_find?_eq_some hsome, fun y hy => ?_⟩
    exact List.mem_of_mem_erase (ih hy)

end WireModel
