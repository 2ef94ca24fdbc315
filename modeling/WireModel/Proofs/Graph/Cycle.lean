import Mathlib.Data.List.Chain
import WireModel.Proofs.Graph.Component

/-!
# Cycles to show — the search for a way back closes

Inside a component the search of `Digraph.searchCycle` never enters a
dead end twice, and the marks it leaves there are never taken back. It
closes all the same (`cyclePath_isCircle`): when a node is given up,
every edge of it has been tried and leads to a node that was seen, so a
search that gave up its start would have seen everything the start
reaches and met no edge back to it.
-/

namespace WireModel

namespace Digraph

open Relation

variable {α : Type} [DecidableEq α] {g : Digraph α}

/-! ## Components that are apart -/

omit [DecidableEq α] in
/-- Of what is kept of a list, no member is connected with a later one. -/
theorem pairwise_lastOfEach {c : α → α → Bool} {l : List α} :
    (lastOfEach c l).Pairwise fun a b => c a b = false := by
  induction l with
  | nil => exact List.Pairwise.nil
  | cons a l ih =>
    rw [lastOfEach]
    split
    · exact ih
    · rename_i hany
      refine List.pairwise_cons.mpr ⟨fun b hb => ?_, ih⟩
      rw [Bool.not_eq_true, List.any_eq_false] at hany
      simpa using hany b (lastOfEach_subset hb)

/-- **Two components have no node in common.** -/
theorem components_disjoint : g.components.Pairwise List.Disjoint := by
  rw [components_eq, List.pairwise_map]
  refine List.Pairwise.imp_of_mem ?_ pairwise_lastOfEach
  intro u v hu hv hfalse x hxu hxv
  have hun : u ∈ g.nodes := mem_leaving_iff.mp (lastOfEach_subset hu)
  have hvn : v ∈ g.nodes := mem_leaving_iff.mp (lastOfEach_subset hv)
  have hx : x ∈ g.nodes := List.mem_of_mem_filter hxu
  have hux : g.Connected u x := (connectedTest_iff hun hx).mp (List.of_mem_filter hxu)
  have hvx : g.Connected v x := (connectedTest_iff hvn hx).mp (List.of_mem_filter hxv)
  have huv := (connectedTest_iff hun hvn).mpr (hux.trans hvx.symm)
  rw [hfalse] at huv
  cases huv

/-! ## The search -/

/-- **A circle through a node**: a path along edges that starts and ends
there, stays inside a set of nodes and passes no other node twice. -/
def IsCircle (g : Digraph α) (start : α) (inside p : List α) : Prop :=
  ∃ mid, p = start :: (mid ++ [start]) ∧ (start :: mid).Nodup ∧ mid ⊆ inside ∧
    p.IsChain fun u v => v ∈ g.edges u

/-- **What the search for a way back keeps.** The frames are the path from
the start to the node looked at, last node first, each with edges still
to try. -/
structure Searching (g : Digraph α) (start : α) (inside seen : List α)
    (frames : List (α × List α)) : Prop where
  /-- Every node of the path is a successor of the one before it. -/
  path : (frames.map (·.1)).IsChain fun v u => v ∈ g.edges u
  /-- The path begins at the start. -/
  base : ∀ u ∈ (frames.map (·.1)).getLast?, u = start
  /-- It passes no node twice. -/
  nodup : (frames.map (·.1)).Nodup
  /-- And stays inside. -/
  path_inside : frames.map (·.1) ⊆ inside
  /-- Its nodes were seen. -/
  path_seen : frames.map (·.1) ⊆ seen
  /-- And so was the start, also once the path is given up. -/
  start_seen : start ∈ seen
  /-- What is still to try are edges. -/
  todo : ∀ f ∈ frames, f.2 ⊆ g.edges f.1
  /-- Every other edge of a node that was seen leads, if it stays inside,
  to a node that was seen and is not the start. -/
  tried : ∀ u ∈ seen, ∀ v ∈ g.edges u, v ∈ inside →
    (v ∈ seen ∧ v ≠ start) ∨ ∃ ws, (u, ws) ∈ frames ∧ v ∈ ws

namespace Searching

variable {start v w : α} {inside seen ws : List α} {frames : List (α × List α)}

omit [DecidableEq α] in
/-- The search starts with the start alone. -/
theorem initial (h : start ∈ inside) :
    g.Searching start inside [start] [(start, g.edges start)] where
  path := List.IsChain.singleton start
  base := by simp
  nodup := by simp
  path_inside := by simpa using h
  path_seen := by simp
  start_seen := by simp
  todo := by simp
  tried := by
    intro u hu x hx _
    obtain rfl : u = start := by simpa using hu
    exact Or.inr ⟨g.edges u, by simp, hx⟩

omit [DecidableEq α] in
/-- A node with nothing left to try is given up. -/
theorem giveUp (h : g.Searching start inside seen ((v, []) :: frames)) :
    g.Searching start inside seen frames where
  path := h.path.tail
  base := by
    intro u hu
    refine h.base u ?_
    cases frames with
    | nil => cases hu
    | cons f frames => simpa [List.getLast?_cons_cons] using hu
  nodup := (List.nodup_cons.mp h.nodup).2
  path_inside := (List.cons_subset.mp h.path_inside).2
  path_seen := (List.cons_subset.mp h.path_seen).2
  start_seen := h.start_seen
  todo f hf := h.todo f (List.mem_cons_of_mem _ hf)
  tried := by
    intro u hu x hx hin
    rcases h.tried u hu x hx hin with hs | ⟨ws, hmem, hws⟩
    · exact Or.inl hs
    · rcases List.mem_cons.mp hmem with heq | hmem
      · cases heq
        cases hws
      · exact Or.inr ⟨ws, hmem, hws⟩

omit [DecidableEq α] in
/-- An edge that leads out or to a node that was seen is passed over. -/
theorem passOver (h : g.Searching start inside seen ((v, w :: ws) :: frames)) (hne : w ≠ start)
    (hw : ¬ (w ∈ inside ∧ w ∉ seen)) : g.Searching start inside seen ((v, ws) :: frames) where
  path := h.path
  base := h.base
  nodup := h.nodup
  path_inside := h.path_inside
  path_seen := h.path_seen
  start_seen := h.start_seen
  todo := by
    intro f hf
    rcases List.mem_cons.mp hf with rfl | hf
    · exact fun x hx => h.todo (v, w :: ws) List.mem_cons_self (List.mem_cons_of_mem w hx)
    · exact h.todo f (List.mem_cons_of_mem _ hf)
  tried := by
    intro u hu x hx hin
    rcases h.tried u hu x hx hin with hs | ⟨us, hmem, hus⟩
    · exact Or.inl hs
    · rcases List.mem_cons.mp hmem with heq | hmem
      · cases heq
        rcases List.mem_cons.mp hus with rfl | hus
        · -- the edge passed over: inside, so it leads to a node that was seen
          exact Or.inl ⟨by_contra fun hs => hw ⟨hin, hs⟩, hne⟩
        · exact Or.inr ⟨ws, List.mem_cons_self, hus⟩
      · exact Or.inr ⟨us, List.mem_cons_of_mem _ hmem, hus⟩

omit [DecidableEq α] in
/-- An edge to a new node is followed. -/
theorem follow (h : g.Searching start inside seen ((v, w :: ws) :: frames)) (hne : w ≠ start)
    (hin : w ∈ inside) (hnew : w ∉ seen) :
    g.Searching start inside (w :: seen) ((w, g.edges w) :: (v, ws) :: frames) where
  path := by
    have hedge : w ∈ g.edges v := h.todo (v, w :: ws) List.mem_cons_self List.mem_cons_self
    exact List.IsChain.cons_cons hedge h.path
  base := by
    intro u hu
    refine h.base u ?_
    simpa [List.getLast?_cons_cons] using hu
  nodup := List.nodup_cons.mpr ⟨fun hmem => hnew (h.path_seen hmem), h.nodup⟩
  path_inside := List.cons_subset.mpr ⟨hin, h.path_inside⟩
  path_seen := List.cons_subset_cons w h.path_seen
  start_seen := List.mem_cons_of_mem w h.start_seen
  todo := by
    intro f hf
    rcases List.mem_cons.mp hf with rfl | hf
    · exact fun x hx => hx
    · rcases List.mem_cons.mp hf with rfl | hf
      · exact fun x hx => h.todo (v, w :: ws) List.mem_cons_self (List.mem_cons_of_mem w hx)
      · exact h.todo f (List.mem_cons_of_mem _ hf)
  tried := by
    intro u hu x hx hxin
    rcases List.mem_cons.mp hu with rfl | hu
    · exact Or.inr ⟨g.edges u, List.mem_cons_self, hx⟩
    · rcases h.tried u hu x hx hxin with ⟨hs, hxne⟩ | ⟨us, hmem, hus⟩
      · exact Or.inl ⟨List.mem_cons_of_mem w hs, hxne⟩
      · rcases List.mem_cons.mp hmem with heq | hmem
        · cases heq
          rcases List.mem_cons.mp hus with rfl | hus
          · exact Or.inl ⟨List.mem_cons_self, hne⟩
          · exact Or.inr ⟨ws, by simp, hus⟩
        · exact Or.inr ⟨us, by simp [hmem], hus⟩

omit [DecidableEq α] in
/-- **An edge back to the start closes a circle.** -/
theorem isCircle (h : g.Searching start inside seen ((v, start :: ws) :: frames)) :
    g.IsCircle start inside (start :: v :: frames.map (·.1)).reverse := by
  have hedge : start ∈ g.edges v := h.todo (v, start :: ws) List.mem_cons_self List.mem_cons_self
  have hchain : (start :: v :: frames.map (·.1)).IsChain fun a b => a ∈ g.edges b :=
    List.IsChain.cons_cons hedge h.path
  -- the path, last node first, ends with the start
  obtain ⟨init, last, hinit⟩ := List.eq_nil_or_concat (v :: frames.map (·.1)) |>.resolve_left
    (List.cons_ne_nil _ _)
  obtain rfl : last = start := h.base last (by simp [hinit])
  have hnodup : (init ++ [last]).Nodup := by
    rw [← List.concat_eq_append, ← hinit]
    exact h.nodup
  refine ⟨init.reverse, ?_, ?_, ?_, List.isChain_reverse.mpr hchain⟩
  · rw [hinit, List.concat_eq_append]
    simp
  · rw [← List.nodup_reverse]
    simpa using hnodup
  · intro x hx
    refine h.path_inside ?_
    rw [List.map_cons, hinit]
    simpa using Or.inl (List.mem_reverse.mp hx)

omit [DecidableEq α] in
/-- **A search that has given up its start has no way back**: what it has
seen is closed under edges inside, and none of them leads to the start. -/
theorem no_way_back (h : g.Searching start inside seen []) :
    ¬ TransGen (fun u v => v ∈ g.edges u ∧ v ∈ inside) start start := by
  intro hback
  have hseen : ∀ {u}, TransGen (fun u v => v ∈ g.edges u ∧ v ∈ inside) start u →
      u ∈ seen ∧ u ≠ start := by
    intro u hu
    induction hu with
    | single hs => simpa using h.tried start h.start_seen _ hs.1 hs.2
    | tail _ hs ih => simpa using h.tried _ ih.1 _ hs.1 hs.2
  exact (hseen hback).2 rfl

end Searching

/-- **The search closes a circle**, if its start reaches itself inside. -/
theorem searchCycle_isCircle {start : α} {inside seen : List α} {frames : List (α × List α)}
    (hback : TransGen (fun u v => v ∈ g.edges u ∧ v ∈ inside) start start)
    (h : g.Searching start inside seen frames) :
    g.IsCircle start inside (g.searchCycle start inside seen frames) := by
  fun_induction searchCycle g start inside seen frames with
  | case1 seen => exact absurd hback h.no_way_back
  | case2 seen v frames ih => exact ih h.giveUp
  | case3 seen v frames ws => exact h.isCircle
  | case4 seen v w ws frames hne hw ih => exact ih (h.follow hne hw.1 hw.2)
  | case5 seen v w ws frames hne hw ih => exact ih (h.passOver hne hw)

omit [DecidableEq α] in
/-- A chain of steps from a node back to it stays among the nodes connected
with it. -/
theorem transGen_inside {c : List α} {start : α} (hc : ∀ u ∈ g.nodes, g.Connected start u → u ∈ c)
    {u : α} (h : TransGen g.Step start u) (hback : ReflTransGen g.Step u start) :
    TransGen (fun u v => v ∈ g.edges u ∧ v ∈ c) start u := by
  have hin : ∀ {b}, TransGen g.Step start b → ReflTransGen g.Step b start → b ∈ c := by
    intro b hb hr
    refine hc b (mem_nodes_of_transGen hb) ?_
    rcases reflTransGen_iff_eq_or_transGen.mp hr with heq | ht
    · exact Or.inl heq
    · exact Or.inr ⟨hb, ht⟩
  induction h with
  | single hs => exact TransGen.single ⟨hs.1, hin (TransGen.single hs) hback⟩
  | tail hb hs ih => exact (ih (ReflTransGen.head hs hback)).tail ⟨hs.1, hin (hb.tail hs) hback⟩

/-- **The path that is shown for a cyclic component is a circle** through
its first member. -/
theorem cyclePath_isCircle (hnd : g.nodes.Nodup) {start : α} {rest : List α}
    (hc : start :: rest ∈ g.components) (hcyc : g.isCyclic (start :: rest) = true) :
    g.IsCircle start (start :: rest) (g.cyclePath (start :: rest)) := by
  have hback : TransGen g.Step start start :=
    (isCyclic_iff hnd hc List.mem_cons_self).mp hcyc
  obtain ⟨r, -, -, hmem⟩ := exists_of_mem_components hc
  have hstart : g.Connected r start := ((hmem start).mp List.mem_cons_self).2
  refine searchCycle_isCircle ?_ (Searching.initial List.mem_cons_self)
  refine transGen_inside (fun u hu h => ?_) hback ReflTransGen.refl
  exact (hmem u).mpr ⟨hu, hstart.trans h⟩

end Digraph

end WireModel
