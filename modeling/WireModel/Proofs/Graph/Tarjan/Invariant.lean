import Mathlib.Data.List.Sort
import WireModel.Graph.Tarjan
import WireModel.Proofs.Graph.Cycle

/-!
# Tarjan's search — what it keeps

At every moment the nodes visited are on the stack or in a component that
is complete. The stack is sorted by numbers, a node reaches those above
it, and every node on it reaches one whose call is still under way
(`Sound`). What is there is left in its place while the search goes on
(`Extends`): a call adds nodes above it, takes them off again, and ends
all calls that it has started.

Lowlinks are not mentioned here. They belong to the calls.
-/

namespace WireModel

namespace Digraph

open Relation

variable {α : Type} [DecidableEq α] {g : Digraph α}

/-! ## What is kept of a list that grows -/

omit [DecidableEq α] in
/-- A new last member takes the place of those connected with it. -/
theorem lastOfEach_concat {c : α → α → Bool} {l : List α} {v : α} :
    lastOfEach c (l ++ [v]) = (lastOfEach c l).filter (fun x => !c x v) ++ [v] := by
  induction l with
  | nil => simp [lastOfEach]
  | cons a l ih =>
    rw [List.cons_append, lastOfEach, lastOfEach, List.any_append, ih]
    by_cases hl : l.any (c a) = true
    · simp [hl]
    · by_cases hv : c a v = true
      · simp [hl, hv]
      · simp [hl, hv]

/-- Nodes put into the order of the graph are all nodes that pass the
same test. -/
theorem mergeSort_idxOf_eq_filter {nodes c : List α} (hnd : nodes.Nodup) (hc : c.Nodup)
    {p : α → Bool} (hmem : ∀ x, x ∈ c ↔ x ∈ nodes ∧ p x = true) :
    (c.mergeSort fun a b => nodes.idxOf a ≤ nodes.idxOf b) = nodes.filter p := by
  have hperm : (c.mergeSort fun a b => nodes.idxOf a ≤ nodes.idxOf b).Perm (nodes.filter p) := by
    refine (List.mergeSort_perm ..).trans ?_
    refine (List.perm_ext_iff_of_nodup hc (hnd.filter _)).mpr fun x => ?_
    rw [hmem, List.mem_filter]
  have hsorted : (c.mergeSort fun a b => nodes.idxOf a ≤ nodes.idxOf b).Pairwise
      fun a b => nodes.idxOf a ≤ nodes.idxOf b := by
    refine (List.pairwise_mergeSort ?_ ?_ c).imp fun h => by simpa using h
    · intro a b d hab hbd
      simp only [decide_eq_true_eq] at hab hbd ⊢
      omega
    · intro a b
      simp only [Bool.or_eq_true, decide_eq_true_eq]
      omega
  have hnodes : nodes.Pairwise fun a b => nodes.idxOf a ≤ nodes.idxOf b := by
    refine List.pairwise_iff_getElem.mpr fun i j hi hj hij => ?_
    rw [hnd.idxOf_getElem, hnd.idxOf_getElem]
    omega
  refine List.Perm.eq_of_pairwise ?_ hsorted (hnodes.sublist List.filter_sublist) hperm
  intro a b _ hb hab hba
  have hbn : b ∈ nodes := List.mem_of_mem_filter hb
  exact ((List.idxOf_inj hbn).mp (by omega)).symm

omit [DecidableEq α] in
/-- Connected nodes are those that reach each other, in no steps or more. -/
theorem connected_iff_reaches {u v : α} :
    g.Connected u v ↔ ReflTransGen g.Step u v ∧ ReflTransGen g.Step v u := by
  rw [Connected, reflTransGen_iff_eq_or_transGen, reflTransGen_iff_eq_or_transGen]
  constructor
  · rintro (rfl | ⟨huv, hvu⟩)
    · exact ⟨Or.inl rfl, Or.inl rfl⟩
    · exact ⟨Or.inr huv, Or.inr hvu⟩
  · rintro ⟨rfl | huv, hvu⟩
    · exact Or.inl rfl
    · rcases hvu with rfl | hvu
      · exact Or.inl rfl
      · exact Or.inr ⟨huv, hvu⟩

namespace Search

/-- A node has a number. -/
def Visited (s : Search α) (v : α) : Prop := (s.indices v).isSome = true

/-- The number of a node that was visited. -/
def num (s : Search α) (v : α) : Nat := (s.indices v).getD 0

/-- The nodes that are in a component. -/
def done (s : Search α) : List α := s.sccs.flatten

variable {s s' : Search α} {v x : α}

omit [DecidableEq α] in
theorem indices_eq_some_iff {n : Nat} : s.indices v = some n ↔ s.Visited v ∧ s.num v = n := by
  cases h : s.indices v <;> simp [Visited, num, h]

omit [DecidableEq α] in
theorem indices_eq_none_iff : s.indices v = none ↔ ¬ s.Visited v := by
  simp [Visited]

theorem visited_visit : (s.visit v).Visited x ↔ x = v ∨ s.Visited x := by
  by_cases hx : x = v <;> simp [visit, Visited, hx]

theorem num_visit_self : (s.visit v).num v = s.index := by
  simp [visit, num]

theorem num_visit_of_ne (h : x ≠ v) : (s.visit v).num x = s.num x := by
  simp [visit, num, h]

theorem mem_done_complete {nodes scc rest : List α} :
    x ∈ (s.complete nodes scc rest).done ↔ x ∈ s.done ∨ x ∈ scc := by
  simp [complete, done]

end Search

/-! ## Taking a component off the stack -/

/-- **A stack falls apart at a node**: into the nodes down to it, and those
below. -/
structure Splits (num : α → Nat) (v : α) (stack scc rest : List α) : Prop where
  append : stack = scc ++ rest
  mem_scc : ∀ x, x ∈ scc ↔ x ∈ stack ∧ num v ≤ num x
  mem_rest : ∀ x, x ∈ rest ↔ x ∈ stack ∧ num x < num v

namespace Splits

variable {num : α → Nat} {v : α} {stack scc rest : List α}

omit [DecidableEq α] in
theorem mem_stack (h : Splits num v stack scc rest) {x : α} : x ∈ stack ↔ x ∈ scc ∨ x ∈ rest := by
  rw [h.append, List.mem_append]

omit [DecidableEq α] in
theorem not_mem_scc (h : Splits num v stack scc rest) {x : α} (hx : x ∈ rest) : x ∉ scc := by
  intro hxc
  have hlt := ((h.mem_rest x).mp hx).2
  have hle := ((h.mem_scc x).mp hxc).2
  omega

omit [DecidableEq α] in
/-- It falls apart below its last node. -/
theorem head (hlt : ∀ x ∈ stack, num x < num v) : Splits num v (v :: stack) [v] stack where
  append := rfl
  mem_scc x := by
    rw [List.mem_singleton, List.mem_cons]
    constructor
    · rintro rfl
      exact ⟨Or.inl rfl, le_refl _⟩
    · rintro ⟨rfl | hx, hle⟩
      · rfl
      · have := hlt x hx
        omega
  mem_rest x := by
    rw [List.mem_cons]
    constructor
    · intro hx
      exact ⟨Or.inr hx, hlt x hx⟩
    · rintro ⟨rfl | hx, hlt⟩
      · omega
      · exact hx

omit [DecidableEq α] in
/-- Or further down. -/
theorem cons (h : Splits num v stack scc rest) {w : α} (hlt : num v < num w) :
    Splits num v (w :: stack) (w :: scc) rest where
  append := by rw [h.append, List.cons_append]
  mem_scc x := by
    rw [List.mem_cons, List.mem_cons, h.mem_scc]
    constructor
    · rintro (rfl | ⟨hx, hle⟩)
      · exact ⟨Or.inl rfl, by omega⟩
      · exact ⟨Or.inr hx, hle⟩
    · rintro ⟨rfl | hx, hle⟩
      · exact Or.inl rfl
      · exact Or.inr ⟨hx, hle⟩
  mem_rest x := by
    rw [List.mem_cons, h.mem_rest]
    constructor
    · rintro ⟨hx, hlt⟩
      exact ⟨Or.inr hx, hlt⟩
    · rintro ⟨rfl | hx, hlt⟩
      · omega
      · exact ⟨hx, hlt⟩

end Splits

/-- **A node that is on the stack is found there.** -/
theorem exists_popTo?_eq {num : α → Nat} {v : α} {stack : List α}
    (hsorted : stack.Pairwise fun x y => num y < num x) (hv : v ∈ stack) :
    ∃ scc rest, Search.popTo? v stack = some (scc, rest) ∧ Splits num v stack scc rest := by
  induction stack with
  | nil => cases hv
  | cons w stack ih =>
    obtain ⟨hw, hsorted⟩ := List.pairwise_cons.mp hsorted
    by_cases hwv : w = v
    · subst hwv
      exact ⟨[w], stack, by simp [Search.popTo?], .head hw⟩
    · have hvs : v ∈ stack := (List.mem_cons.mp hv).resolve_left (Ne.symm hwv)
      obtain ⟨scc, rest, hpop, hsplits⟩ := ih hsorted hvs
      exact ⟨w :: scc, rest, by simp [Search.popTo?, hwv, hpop], hsplits.cons (hw v hvs)⟩

/-! ## The invariant -/

/-- **What the search keeps.** `left` are the nodes whose calls are over,
the last one first. -/
structure Sound (g : Digraph α) (s : Search α) (left : List α) : Prop where
  /-- Only nodes are visited. -/
  visited_nodes : ∀ x, s.Visited x → x ∈ g.nodes
  /-- They have numbers below the next one. -/
  num_lt : ∀ x, s.Visited x → s.num x < s.index
  /-- The last one on the stack has the largest. -/
  stack_sorted : s.stack.Pairwise fun x y => s.num y < s.num x
  onStack_iff : ∀ x, s.onStack x = true ↔ x ∈ s.stack
  /-- What was visited is on the stack or in a component. -/
  visited_iff : ∀ x, s.Visited x ↔ x ∈ s.stack ∨ x ∈ s.done
  not_done : ∀ x ∈ s.stack, x ∉ s.done
  left_visited : ∀ x ∈ left, s.Visited x
  done_left : ∀ x ∈ s.done, x ∈ left
  /-- From a node that was left all edges were looked at. -/
  left_step : ∀ x ∈ left, ∀ y, g.Step x y → s.Visited y
  /-- No edge leads out of the components found. -/
  done_step : ∀ x ∈ s.done, ∀ y, g.Step x y → y ∈ s.done
  /-- On the stack a node reaches those above it. -/
  reaches_up : ∀ x ∈ s.stack, ∀ y ∈ s.stack, s.num x ≤ s.num y → ReflTransGen g.Step x y
  /-- And it reaches one at its place or below whose call is not over. -/
  reaches_open : ∀ x ∈ s.stack, ∃ z ∈ s.stack, z ∉ left ∧ s.num z ≤ s.num x ∧
    ReflTransGen g.Step x z
  /-- The components found are those of the nodes left last in them. -/
  sccs_eq : s.sccs = ((lastOfEach g.connectedTest left.reverse).filter
    fun x => decide (x ∈ s.done)).map fun x => g.nodes.filter (g.connectedTest x)
  /-- None of them has an edge to a later one. -/
  apart : s.sccs.Pairwise fun c c' => ∀ x ∈ c, ∀ y ∈ c', ¬ g.Step x y

theorem Sound.visited_of_stack {s : Search α} {left : List α} (h : Sound g s left) {x : α}
    (hx : x ∈ s.stack) : s.Visited x := (h.visited_iff x).mpr (Or.inl hx)

theorem Sound.visited_of_done {s : Search α} {left : List α} (h : Sound g s left) {x : α}
    (hx : x ∈ s.done) : s.Visited x := (h.visited_iff x).mpr (Or.inr hx)

/-- **What is there stays** while the search goes on: numbers, places on the
stack, and calls that are under way. -/
structure Extends (s s' : Search α) (left left' : List α) : Prop where
  indices : ∀ x, s.Visited x → s'.indices x = s.indices x
  index_le : s.index ≤ s'.index
  /-- New nodes get new numbers. -/
  fresh : ∀ x, ¬ s.Visited x → s'.Visited x → s.index ≤ s'.num x
  stack : ∀ x, s.Visited x → (x ∈ s'.stack ↔ x ∈ s.stack)
  /-- The calls for new nodes are over. -/
  left : ∀ x, x ∈ left' ↔ x ∈ left ∨ (s'.Visited x ∧ ¬ s.Visited x)

namespace Extends

variable {s s' s'' : Search α} {left left' left'' : List α}

omit [DecidableEq α] in
theorem visited (h : Extends s s' left left') {x : α} (hx : s.Visited x) : s'.Visited x := by
  rw [Search.Visited, h.indices x hx]
  exact hx

omit [DecidableEq α] in
theorem num (h : Extends s s' left left') {x : α} (hx : s.Visited x) : s'.num x = s.num x := by
  rw [Search.num, h.indices x hx, Search.num]

omit [DecidableEq α] in
theorem refl : Extends s s left left where
  indices _ _ := rfl
  index_le := le_refl _
  fresh _ hx hx' := absurd hx' hx
  stack _ _ := Iff.rfl
  left _ := ⟨Or.inl, fun hx => hx.elim id fun hx => absurd hx.1 hx.2⟩

omit [DecidableEq α] in
theorem trans (h : Extends s s' left left') (h' : Extends s' s'' left' left'') :
    Extends s s'' left left'' where
  indices _ hx := (h'.indices _ (h.visited hx)).trans (h.indices _ hx)
  index_le := le_trans h.index_le h'.index_le
  fresh x hx hx'' := by
    by_cases hx' : s'.Visited x
    · rw [h'.num hx']
      exact h.fresh x hx hx'
    · exact le_trans h.index_le (h'.fresh x hx' hx'')
  stack _ hx := (h'.stack _ (h.visited hx)).trans (h.stack _ hx)
  left x := by
    rw [h'.left, h.left]
    constructor
    · rintro ((hx | ⟨hx, hn⟩) | ⟨hx, hn⟩)
      · exact Or.inl hx
      · exact Or.inr ⟨h'.visited hx, hn⟩
      · exact Or.inr ⟨hx, fun hs => hn (h.visited hs)⟩
    · rintro (hx | ⟨hx, hn⟩)
      · exact Or.inl (Or.inl hx)
      · by_cases hx' : s'.Visited x
        · exact Or.inl (Or.inr ⟨hx', hn⟩)
        · exact Or.inr ⟨hx, hx'⟩

end Extends

/-! ## A node is visited -/

section Visit

variable {s s' : Search α} {left left' : List α} {v : α}

/-- The search may start. -/
theorem Sound.initial : Sound g ({} : Search α) [] where
  visited_nodes x hx := by simp [Search.Visited] at hx
  num_lt x hx := by simp [Search.Visited] at hx
  stack_sorted := List.Pairwise.nil
  onStack_iff := by simp
  visited_iff := by simp [Search.Visited, Search.done]
  not_done := by simp
  left_visited := by simp
  done_left := by simp [Search.done]
  left_step := by simp
  done_step := by simp [Search.done]
  reaches_up := by simp
  reaches_open := by simp
  sccs_eq := rfl
  apart := List.Pairwise.nil

/-- **A new node is visited.** The nodes on the stack have to reach it. -/
theorem Sound.visit (h : Sound g s left) (hv : v ∈ g.nodes) (hnew : ¬ s.Visited v)
    (hreach : ∀ x ∈ s.stack, ReflTransGen g.Step x v) : Sound g (s.visit v) left := by
  have hstack : ∀ x ∈ s.stack, s.Visited x := fun x hx => h.visited_of_stack hx
  have hdone : ∀ x ∈ s.done, s.Visited x := fun x hx => h.visited_of_done hx
  have hnum : ∀ x, s.Visited x → (s.visit v).num x = s.num x := fun x hx =>
    Search.num_visit_of_ne fun hxv => hnew (hxv ▸ hx)
  have hmem : ∀ x, x ∈ (s.visit v).stack ↔ x = v ∨ x ∈ s.stack := fun x => List.mem_cons
  refine
    { visited_nodes := fun x hx => ?_
      num_lt := fun x hx => ?_
      stack_sorted := ?_
      onStack_iff := fun x => ?_
      visited_iff := fun x => ?_
      not_done := fun x hx hxd => ?_
      left_visited := fun x hx => Search.visited_visit.mpr (Or.inr (h.left_visited x hx))
      done_left := h.done_left
      left_step := fun x hx y hxy => Search.visited_visit.mpr (Or.inr (h.left_step x hx y hxy))
      done_step := h.done_step
      reaches_up := fun x hx y hy hle => ?_
      reaches_open := fun x hx => ?_
      sccs_eq := h.sccs_eq
      apart := h.apart }
  · rcases Search.visited_visit.mp hx with rfl | hx
    · exact hv
    · exact h.visited_nodes x hx
  · rcases Search.visited_visit.mp hx with rfl | hx
    · rw [Search.num_visit_self]
      exact Nat.lt_succ_self _
    · rw [hnum x hx]
      exact Nat.lt_succ_of_lt (h.num_lt x hx)
  · refine List.pairwise_cons.mpr ⟨fun x hx => ?_, ?_⟩
    · rw [Search.num_visit_self, hnum x (hstack x hx)]
      exact h.num_lt x (hstack x hx)
    · refine h.stack_sorted.imp_of_mem fun {x y} hx hy hlt => ?_
      rw [hnum x (hstack x hx), hnum y (hstack y hy)]
      exact hlt
  · rw [hmem, ← h.onStack_iff]
    by_cases hxv : x = v <;> simp [Search.visit, hxv]
  · rw [Search.visited_visit, h.visited_iff, hmem, or_assoc]
    rfl
  · rcases (hmem x).mp hx with rfl | hx
    · exact hnew (hdone x hxd)
    · exact h.not_done x hx hxd
  · rcases (hmem x).mp hx with rfl | hxs
    · rcases (hmem y).mp hy with rfl | hys
      · exact .refl
      · -- the new node has the largest number
        rw [Search.num_visit_self, hnum y (hstack y hys)] at hle
        have := h.num_lt y (hstack y hys)
        omega
    · rcases (hmem y).mp hy with rfl | hys
      · exact hreach x hxs
      · rw [hnum x (hstack x hxs), hnum y (hstack y hys)] at hle
        exact h.reaches_up x hxs y hys hle
  · rcases (hmem x).mp hx with rfl | hx
    · exact ⟨x, (hmem x).mpr (Or.inl rfl), fun hl => hnew (h.left_visited x hl), le_refl _, .refl⟩
    · obtain ⟨z, hz, hzl, hle, hxz⟩ := h.reaches_open x hx
      refine ⟨z, (hmem z).mpr (Or.inr hz), hzl, ?_, hxz⟩
      rw [hnum z (hstack z hz), hnum x (hstack x hx)]
      exact hle

/-- No chain leads out of the components found. -/
theorem Sound.mem_done_of_reaches (h : Sound g s left) {x y : α} (hx : x ∈ s.done)
    (hxy : ReflTransGen g.Step x y) : y ∈ s.done := by
  induction hxy with
  | refl => exact hx
  | tail _ hs ih => exact h.done_step _ ih _ hs

/-- So nothing in them is connected with a node that is on the stack. -/
theorem Sound.connectedTest_of_done (h : Sound g s left) {x : α} (hx : x ∈ s.done)
    (hv : v ∈ s.stack) : g.connectedTest x v = false := by
  have hxn : x ∈ g.nodes := h.visited_nodes x (h.visited_of_done hx)
  have hvn : v ∈ g.nodes := h.visited_nodes v (h.visited_of_stack hv)
  rw [← Bool.not_eq_true, connectedTest_iff hxn hvn, connected_iff_reaches]
  exact fun hc => h.not_done v hv (h.mem_done_of_reaches hx hc.1)

/-- Lowlinks are not part of what is kept. -/
theorem Sound.lower (h : Sound g s left) (n : Nat) : Sound g (s.lower v n) left :=
  ⟨h.1, h.2, h.3, h.4, h.5, h.6, h.7, h.8, h.9, h.10, h.11, h.12, h.13, h.14⟩

theorem Extends.lower (h : Extends s s' left left') (n : Nat) :
    Extends s (s'.lower v n) left left' :=
  ⟨h.1, h.2, h.3, h.4, h.5⟩

end Visit

end Digraph

end WireModel
