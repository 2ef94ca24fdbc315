import Mathlib
import WireModel.Proofs.Graph.Tarjan.Call

/-!
# Tarjan's search — it finds the components

The search enters and leaves the nodes as a plain depth-first walk does
(`Takes`), and completes a component when it leaves the last node of it.
So it gives the components in the order of the walk (`tarjan?_eq`), and
never takes a node off an empty stack.
-/

namespace WireModel

namespace Digraph

open Relation

variable {α : Type} [DecidableEq α] {g : Digraph α}

/-! ## The search and the walk -/

/-- **What there is to do has been done**, whatever comes after it: in the
search, and in a walk that leaves the nodes as calls come to their end. -/
structure Takes (g : Digraph α) (tasks : List (Task α)) (visits : List (Visit α))
    (s s' : Search α) (left left' : List α) : Prop where
  search : ∀ rest, g.search s (tasks ++ rest) = g.search s' rest
  walk : ∀ seen : List α, (∀ x, x ∈ seen ↔ s.Visited x) →
    ∃ seen' : List α, (∀ x, x ∈ seen' ↔ s'.Visited x) ∧
      ∀ rest, g.walk seen left (visits ++ rest) = g.walk seen' left' rest

namespace Takes

variable {s s' s'' : Search α} {left left' left'' : List α} {v w : α}
  {tasks tasks' : List (Task α)} {visits visits' : List (Visit α)}

theorem nothing : Takes g [] [] s s left left where
  search _ := rfl
  walk seen hseen := ⟨seen, hseen, fun _ => rfl⟩

theorem append (h : Takes g tasks visits s s' left left')
    (h' : Takes g tasks' visits' s' s'' left' left'') :
    Takes g (tasks ++ tasks') (visits ++ visits') s s'' left left'' where
  search rest := by rw [List.append_assoc, h.search, h'.search]
  walk seen hseen := by
    obtain ⟨seen', hseen', hwalk⟩ := h.walk seen hseen
    obtain ⟨seen'', hseen'', hwalk'⟩ := h'.walk seen' hseen'
    exact ⟨seen'', hseen'', fun rest => by rw [List.append_assoc, hwalk, hwalk']⟩

/-- A node that was visited is not called again. -/
theorem known (hv : s.Visited v) : Takes g [.call v] [.enter v] s s left left where
  search rest := by
    have hknown : ¬ (v ∈ g.nodes ∧ s.indices v = none) := fun hnew =>
      Search.indices_eq_none_iff.mp hnew.2 hv
    rw [List.singleton_append, Digraph.search, dif_neg hknown]
  walk seen hseen := by
    refine ⟨seen, hseen, fun rest => ?_⟩
    have hknown : ¬ (v ∈ g.nodes ∧ v ∉ seen) := fun hnew => hnew.2 ((hseen v).mpr hv)
    rw [List.singleton_append, Digraph.walk, dif_neg hknown]

/-- A new node is called: its edges are looked at, and then it is left. -/
theorem call (hv : v ∈ g.nodes) (hnew : ¬ s.Visited v)
    (h : Takes g ((g.edges v).map (.edge v) ++ [.close v])
      ((g.edges v).map .enter ++ [.leave v]) (s.visit v) s' left left') :
    Takes g [.call v] [.enter v] s s' left left' where
  search rest := by
    have hcall : v ∈ g.nodes ∧ s.indices v = none := ⟨hv, Search.indices_eq_none_iff.mpr hnew⟩
    rw [List.singleton_append, Digraph.search, dif_pos hcall, ← h.search rest, List.append_assoc]
    rfl
  walk seen hseen := by
    obtain ⟨seen', hseen', hwalk⟩ := h.walk (v :: seen) fun x => by
      rw [List.mem_cons, hseen, Search.visited_visit]
    refine ⟨seen', hseen', fun rest => ?_⟩
    have hcall : v ∈ g.nodes ∧ v ∉ seen := ⟨hv, fun hs => hnew ((hseen v).mp hs)⟩
    rw [List.singleton_append, Digraph.walk, dif_pos hcall, ← hwalk rest, List.append_assoc]
    rfl

/-- An edge that leads to no node is passed over. -/
theorem outside (hw : w ∉ g.nodes) : Takes g [.edge v w] [.enter w] s s left left where
  search rest := by rw [List.singleton_append, Digraph.search, if_neg hw]
  walk seen hseen := by
    refine ⟨seen, hseen, fun rest => ?_⟩
    rw [List.singleton_append, Digraph.walk, dif_neg fun hnew => hw hnew.1]

/-- So is one to a node that has its component. -/
theorem finished (hw : s.Visited w) (hoff : s.onStack w = false) :
    Takes g [.edge v w] [.enter w] s s left left where
  search rest := by
    rw [List.singleton_append, Digraph.search]
    split
    · rw [Search.indices_eq_some_iff.mpr ⟨hw, rfl⟩]
      simp [hoff]
    · rfl
  walk := known hw |>.walk

/-- An edge to a node on the stack lowers the lowlink. -/
theorem backward (hn : w ∈ g.nodes) (hw : s.Visited w) (hon : s.onStack w = true) :
    Takes g [.edge v w] [.enter w] s (s.lower v (s.num w)) left left where
  search rest := by
    rw [List.singleton_append, Digraph.search, if_pos hn,
      Search.indices_eq_some_iff.mpr ⟨hw, rfl⟩]
    simp [hon]
  walk := known hw |>.walk

/-- And after the call for a new node it is lowered to that of the node. -/
theorem forward (hn : w ∈ g.nodes) (hw : ¬ s.Visited w)
    (h : Takes g [.call w] [.enter w] s s' left left') :
    Takes g [.edge v w] [.enter w] s (s'.lower v (s'.lowlink w)) left left' where
  search rest := by
    rw [List.singleton_append, Digraph.search, if_pos hn, Search.indices_eq_none_iff.mpr hw]
    exact (h.search (.back v w :: rest)).trans (by rw [Digraph.search])
  walk := h.walk

/-- A node is left. -/
theorem leave (h : s.close? g.nodes v = some s') :
    Takes g [.close v] [.leave v] s s' left (v :: left) where
  search rest := by
    rw [List.singleton_append, Digraph.search]
    split
    next hnone => rw [h] at hnone; cases hnone
    next hsome => rw [h] at hsome; rw [Option.some.inj hsome]
  walk seen hseen := by
    refine ⟨seen, fun x => ?_, fun rest => by rw [List.singleton_append, Digraph.walk]⟩
    rw [hseen, Search.Visited, Search.Visited, Search.indices_of_close? h]

end Takes

/-! ## All calls come to their end -/

section Calls

variable {s s' : Search α} {left left' : List α} {v : α}

omit [DecidableEq α] in
/-- What grows has no more nodes to visit. -/
theorem Extends.unvisited_le (h : Extends s s' left left') :
    g.unvisited s' ≤ g.unvisited s := by
  refine length_filter_le_filter (fun x hx => ?_) g.nodes
  rw [Option.isNone_iff_eq_none, Search.indices_eq_none_iff] at hx ⊢
  exact fun hs => hx (h.visited hs)

/-- **The edges of a node are looked at one after the other**, if the calls
for nodes that are new by then come to their end. -/
theorem Calling.tryAll
    (hcall : ∀ t l w, g.unvisited t < g.unvisited s → Sound g t l → w ∈ g.nodes → ¬ t.Visited w →
      (∀ x ∈ t.stack, ReflTransGen g.Step x w) →
      ∃ t' l', Called g t t' l l' w ∧ Takes g [.call w] [.enter w] t t' l l')
    {tried ws : List α} (hws : tried ++ ws = g.edges v)
    (h : Calling g s s' left left' v tried) :
    ∃ s'' left'', Calling g s s'' left left'' v (g.edges v) ∧
      Takes g (ws.map (.edge v)) (ws.map .enter) s' s'' left' left'' := by
  induction ws generalizing s' left' tried with
  | nil =>
    rw [List.append_nil] at hws
    exact ⟨s', left', hws ▸ h, .nothing⟩
  | cons w ws ih =>
    -- the edge to `w`, and then the others
    have hedge : w ∈ g.edges v := by
      rw [← hws]
      simp
    have hnext : ∀ {t l}, Calling g s t left l v (tried ++ [w]) →
        Takes g [.edge v w] [.enter w] s' t left' l → ∃ s'' left'',
          Calling g s s'' left left'' v (g.edges v) ∧
            Takes g ((w :: ws).map (.edge v)) ((w :: ws).map .enter) s' s'' left' left'' := by
      intro t l hc ht
      obtain ⟨s'', left'', hc', ht'⟩ := ih (by rw [List.append_assoc]; exact hws) hc
      exact ⟨s'', left'', hc', ht.append ht'⟩
    by_cases hn : w ∈ g.nodes
    · by_cases hvis : s'.Visited w
      · by_cases hon : w ∈ s'.stack
        · exact hnext (h.lower ⟨hedge, hn⟩ hon)
            (.backward hn hvis ((h.sound.onStack_iff w).mpr hon))
        · have hoff : s'.onStack w = false := by
            rw [← Bool.not_eq_true, h.sound.onStack_iff]
            exact hon
          exact hnext (h.passOver fun _ => ⟨hvis, hon⟩) (.finished hvis hoff)
      · have hreach : ∀ x ∈ s'.stack, ReflTransGen g.Step x w := fun x hx =>
          (h.reaches_self hx).tail ⟨hedge, hn⟩
        have hlt : g.unvisited s' < g.unvisited s :=
          lt_of_le_of_lt h.grows.unvisited_le
            (g.unvisited_visit_lt h.mem_nodes (Search.indices_eq_none_iff.mpr h.new))
        obtain ⟨t, l, hc, ht⟩ := hcall s' left' w hlt h.sound hn hvis hreach
        exact hnext (h.follow ⟨hedge, hn⟩ hvis hc) (.forward hn hvis ht)
    · exact hnext (h.passOver fun hn' => absurd hn' hn) (.outside hn)

/-- **A call for a new node comes to its end.** The induction is on the number
of nodes that were not visited. -/
theorem Sound.exists_called (hnd : g.nodes.Nodup) (h : Sound g s left) (hv : v ∈ g.nodes)
    (hnew : ¬ s.Visited v) (hreach : ∀ x ∈ s.stack, ReflTransGen g.Step x v) :
    ∃ s' left', Called g s s' left left' v ∧ Takes g [.call v] [.enter v] s s' left left' := by
  induction hn : g.unvisited s using Nat.strong_induction_on generalizing s left v with
  | _ n ih =>
    subst hn
    obtain ⟨s₁, left₁, hcalling, hedges⟩ := Calling.tryAll
      (fun t l w hlt ht hw hwnew hwreach => ih _ hlt ht hw hwnew hwreach rfl)
      (List.nil_append _) (Calling.start h hv hnew hreach)
    obtain ⟨s₂, hclose, hcalled⟩ := hcalling.close hnd fun _ hw => hw
    exact ⟨s₂, v :: left₁, hcalled, .call hv hnew (hedges.append (.leave hclose))⟩

/-- When no call is under way, the stack is empty after a call too. -/
theorem Called.stack_eq_nil (h : Called g s s' left left' v) (hidle : s.stack = []) :
    s'.stack = [] := by
  refine List.eq_nil_iff_forall_not_mem.mpr fun x hx => ?_
  obtain ⟨z, hz, hzl, -⟩ := h.sound.reaches_open x hx
  have hvis : s'.Visited z := h.sound.visited_of_stack hz
  by_cases hold : s.Visited z
  · have hzs := (h.grows.stack z hold).mp hz
    rw [hidle] at hzs
    cases hzs
  · exact hzl ((h.grows.left z).mpr (Or.inr ⟨hvis, hold⟩))

/-- **One node after the other is called**, until all were visited. -/
theorem Sound.exists_takes (hnd : g.nodes.Nodup) {ns : List α} (hns : ns ⊆ g.nodes)
    (h : Sound g s left) (hidle : s.stack = []) :
    ∃ s' left', Sound g s' left' ∧ s'.stack = [] ∧ (∀ x ∈ ns, s'.Visited x) ∧
      (∀ x, s.Visited x → s'.Visited x) ∧
      Takes g (ns.map .call) (ns.map .enter) s s' left left' := by
  induction ns generalizing s left with
  | nil => exact ⟨s, left, h, hidle, by simp, fun _ hx => hx, .nothing⟩
  | cons v ns ih =>
    obtain ⟨hv, hns⟩ := List.cons_subset.mp hns
    by_cases hvis : s.Visited v
    · obtain ⟨s', left', hs', hidle', hall, hold, ht⟩ := ih hns h hidle
      refine ⟨s', left', hs', hidle', fun x hx => ?_, hold, .append (.known hvis) ht⟩
      rcases List.mem_cons.mp hx with rfl | hx
      · exact hold x hvis
      · exact hall x hx
    · obtain ⟨s₁, left₁, hcalled, ht₁⟩ := h.exists_called hnd hv hvis (by simp [hidle])
      obtain ⟨s', left', hs', hidle', hall, hold, ht⟩ :=
        ih hns hcalled.sound (hcalled.stack_eq_nil hidle)
      refine ⟨s', left', hs', hidle', fun x hx => ?_, fun x hx => hold x (hcalled.grows.visited hx),
        .append ht₁ ht⟩
      rcases List.mem_cons.mp hx with rfl | hx
      · exact hold x hcalled.visited
      · exact hall x hx

/-- **The search finds the components**: it never takes a node off an empty
stack, and none of what it finds has an edge to what it finds later. -/
theorem tarjan?_eq (hnd : g.nodes.Nodup) : g.tarjan? = some g.components ∧
    g.components.Pairwise fun c c' => ∀ x ∈ c, ∀ y ∈ c', ¬ g.Step x y := by
  obtain ⟨s, left, hs, hidle, hall, -, ht⟩ :=
    Sound.exists_takes hnd (List.Subset.refl _) Sound.initial rfl
  have hleaving : g.leaving = left.reverse := by
    obtain ⟨seen, -, hwalk⟩ := ht.walk [] (by simp [Search.Visited])
    have hall := hwalk []
    rwa [List.append_nil, walk] at hall
  have hdone : ∀ x ∈ g.nodes, x ∈ s.done := by
    intro x hx
    have := (hs.visited_iff x).mp (hall x hx)
    simpa [hidle] using this
  have hsccs : s.sccs = g.components := by
    rw [hs.sccs_eq, components_eq, hleaving]
    congr 1
    refine List.filter_eq_self.mpr fun x hx => ?_
    have hxn : x ∈ g.nodes := by
      rw [← hleaving] at hx
      exact mem_leaving_iff.mp (lastOfEach_subset hx)
    exact decide_eq_true (hdone x hxn)
  refine ⟨?_, hsccs ▸ hs.apart⟩
  have hall := ht.search []
  rwa [List.append_nil, search, hsccs] at hall

end Calls

/-! ## The components of a graph -/

/-- **Every node is in exactly one component.** -/
theorem flatten_components_perm (hnd : g.nodes.Nodup) : g.components.flatten.Perm g.nodes := by
  have hnodup : g.components.flatten.Nodup := by
    refine List.nodup_flatten.mpr ⟨fun c hc => ?_, components_disjoint⟩
    obtain ⟨r, -, rfl, -⟩ := exists_of_mem_components hc
    exact hnd.filter _
  refine (List.perm_ext_iff_of_nodup hnodup hnd).mpr fun v => ?_
  rw [List.mem_flatten]
  constructor
  · rintro ⟨c, hc, hv⟩
    obtain ⟨r, -, -, hmem⟩ := exists_of_mem_components hc
    exact ((hmem v).mp hv).1
  · intro hv
    exact exists_mem_components hv

/-- **Nodes share a component exactly when they reach each other.** -/
theorem share_component_iff {u v : α} (hu : u ∈ g.nodes) (hv : v ∈ g.nodes) :
    (∃ c ∈ g.components, u ∈ c ∧ v ∈ c) ↔
      ReflTransGen g.Step u v ∧ ReflTransGen g.Step v u := by
  rw [← connected_iff_reaches]
  constructor
  · rintro ⟨c, hc, huc, hvc⟩
    obtain ⟨r, -, -, hmem⟩ := exists_of_mem_components hc
    exact ((hmem u).mp huc).2.symm.trans ((hmem v).mp hvc).2
  · intro huv
    obtain ⟨c, hc, huc⟩ := exists_mem_components hu
    obtain ⟨r, -, -, hmem⟩ := exists_of_mem_components hc
    exact ⟨c, hc, huc, (hmem v).mpr ⟨hv, ((hmem u).mp huc).2.trans huv⟩⟩

/-- **Tarjan's search finds the strongly connected components.** It comes to its
end for every list of distinct nodes and all edges, and gives the
components in which linking groups modules and declarations:

* they are not empty, and every node is in exactly one of them;
* their members are in the order of the nodes;
* nodes share one exactly when each reaches the other along edges that
  stay among the nodes;
* an edge from one to a different one leads to one that comes before it. -/
theorem components_stronglyConnected (hnd : g.nodes.Nodup) :
    ∃ cs, g.tarjan? = some cs ∧ g.components = cs ∧ cs.flatten.Perm g.nodes ∧
      (∀ c ∈ cs, c ≠ [] ∧ c.Sublist g.nodes) ∧
      (∀ u ∈ g.nodes, ∀ v ∈ g.nodes, (∃ c ∈ cs, u ∈ c ∧ v ∈ c) ↔
        ReflTransGen g.Step u v ∧ ReflTransGen g.Step v u) ∧
      ∀ (i j : Nat) (c c' : List α), cs[i]? = some c → cs[j]? = some c' → i ≠ j →
        ∀ u ∈ c, ∀ v ∈ c', v ∈ g.edges u → j < i := by
  obtain ⟨hsearch, hapart⟩ := tarjan?_eq hnd
  refine ⟨g.components, hsearch, rfl, flatten_components_perm hnd, fun c hc => ?_,
    fun u hu v hv => share_component_iff hu hv, fun i j c c' hi hj hij u hu v hv huv => ?_⟩
  · obtain ⟨r, hr, rfl, hmem⟩ := exists_of_mem_components hc
    exact ⟨List.ne_nil_of_mem ((hmem r).mpr ⟨hr, Or.inl rfl⟩), List.filter_sublist⟩
  · -- otherwise the edge would lead to a later component
    by_contra hle
    obtain ⟨hilt, rfl⟩ := List.getElem?_eq_some_iff.mp hi
    obtain ⟨hjlt, rfl⟩ := List.getElem?_eq_some_iff.mp hj
    obtain ⟨r, -, -, hmem⟩ := exists_of_mem_components (List.getElem_mem hjlt)
    have hlater := List.pairwise_iff_getElem.mp hapart i j hilt hjlt (by omega)
    exact hlater u hu v hv ⟨huv, ((hmem v).mp hv).1⟩

end Digraph

namespace Sample

/-- Two circles of which the first one leads to the second one, and a node that
the second one leads to. One edge stands twice, and one leaves the nodes. -/
def circles : Digraph Nat where
  nodes := [4, 1, 3, 0, 2]
  edges v :=
    match v with
    | 4 => [1, 9]
    | 1 => [4, 3, 3]
    | 3 => [0]
    | 0 => [3, 2]
    | _ => []

/-- Their components, found from the last one on. -/
theorem circles_components : circles.nodes.Nodup ∧
    circles.tarjan? = some [[2], [3, 0], [4, 1]] ∧
    ∃ cs, circles.tarjan? = some cs ∧ circles.components = cs ∧ cs.flatten.Perm circles.nodes ∧
      (∀ c ∈ cs, c ≠ [] ∧ c.Sublist circles.nodes) ∧
      (∀ u ∈ circles.nodes, ∀ v ∈ circles.nodes, (∃ c ∈ cs, u ∈ c ∧ v ∈ c) ↔
        Relation.ReflTransGen circles.Step u v ∧ Relation.ReflTransGen circles.Step v u) ∧
      ∀ (i j : Nat) (c c' : List Nat), cs[i]? = some c → cs[j]? = some c' → i ≠ j →
        ∀ u ∈ c, ∀ v ∈ c', v ∈ circles.edges u → j < i :=
  ⟨by decide, by cbv, Digraph.components_stronglyConnected (by decide)⟩

end Sample

end WireModel
