import WireModel.Proofs.Graph.Tarjan.Invariant

/-!
# Tarjan's search — one call

While the edges of a node are looked at, its lowlink is the number of a
node on the stack that it reaches, and no edge that was looked at, from it
or from a new node above it, leads to an older node below that number
(`Calling`). So when all edges are done there are two cases. A lowlink
below the node's own number means that the node reaches an older one, and
it stays on the stack. Otherwise no edge leads from the node and the
nodes above it to an older one on the stack, and these are its component
(`Calling.connected_iff`).
-/

namespace WireModel

namespace Digraph

open Relation

variable {α : Type} [DecidableEq α] {g : Digraph α}

/-! ## A call -/

/-- **A call for `v` has come to its end**, from a state `s`. If the node is
still on the stack its lowlink is the number of a node there that it
reaches, and no new node there has an edge to an old one below that. -/
structure Called (g : Digraph α) (s s' : Search α) (left left' : List α) (v : α) : Prop where
  sound : Sound g s' left'
  grows : Extends s s' left left'
  visited : s'.Visited v
  lowlink : ∀ x, s.Visited x → s'.lowlink x = s.lowlink x
  reaches : v ∈ s'.stack → ∃ y ∈ s'.stack, s'.num y = s'.lowlink v ∧ ReflTransGen g.Step v y
  popped : v ∉ s'.stack → s'.num v ≤ s'.lowlink v
  lowest : ∀ x ∈ s'.stack, ¬ s.Visited x → ∀ y ∈ s.stack, g.Step x y → s'.lowlink v ≤ s'.num y

/-- **A call for a new node `v` is under way**, from a state `s`, and some of
the edges of `v` have been tried. -/
structure Calling (g : Digraph α) (s s' : Search α) (left left' : List α) (v : α)
    (tried : List α) : Prop where
  before : Sound g s left
  new : ¬ s.Visited v
  sound : Sound g s' left'
  grows : Extends (s.visit v) s' left left'
  lowlink : ∀ x, s.Visited x → s'.lowlink x = s.lowlink x
  reaches : ∃ y ∈ s'.stack, s'.num y = s'.lowlink v ∧ ReflTransGen g.Step v y
  lowlink_le : s'.lowlink v ≤ s'.num v
  lowest : ∀ x ∈ s'.stack, ¬ s.Visited x → x ≠ v → ∀ y ∈ s.stack, g.Step x y →
    s'.lowlink v ≤ s'.num y
  tried : ∀ w ∈ tried, w ∈ g.nodes → s'.Visited w ∧ (w ∈ s.stack → s'.lowlink v ≤ s'.num w)

namespace Calling

variable {s s' s'' : Search α} {left left' left'' : List α} {v w : α} {tried : List α}

/-- The call starts. -/
theorem start (h : Sound g s left) (hv : v ∈ g.nodes) (hnew : ¬ s.Visited v)
    (hreach : ∀ x ∈ s.stack, ReflTransGen g.Step x v) :
    Calling g s (s.visit v) left left v [] := by
  have hself : (s.visit v).num v = (s.visit v).lowlink v := by
    rw [Search.num_visit_self]
    exact (if_pos rfl).symm
  refine
    { before := h
      new := hnew
      sound := h.visit hv hnew hreach
      grows := .refl
      lowlink := fun x hx => ?_
      reaches := ⟨v, List.mem_cons_self, hself, .refl⟩
      lowlink_le := hself.ge
      lowest := fun x hx hxn hxv => ?_
      tried := by simp }
  · have hxv : x ≠ v := fun hxv => hnew (hxv ▸ hx)
    simp [Search.visit, hxv]
  · rcases List.mem_cons.mp hx with rfl | hxs
    · exact absurd rfl hxv
    · exact absurd (h.visited_of_stack hxs) hxn

variable (h : Calling g s s' left left' v tried)

include h

theorem mem_stack : v ∈ s'.stack :=
  (h.grows.stack v (Search.visited_visit.mpr (Or.inl rfl))).mpr List.mem_cons_self

theorem mem_nodes : v ∈ g.nodes :=
  h.sound.visited_nodes v (h.sound.visited_of_stack h.mem_stack)

theorem num_self : s'.num v = s.index := by
  rw [h.grows.num (Search.visited_visit.mpr (Or.inl rfl)), Search.num_visit_self]

/-- Nodes that were visited before the call are where they were. -/
theorem mem_stack_iff {x : α} (hx : s.Visited x) : x ∈ s'.stack ↔ x ∈ s.stack := by
  rw [h.grows.stack x (Search.visited_visit.mpr (Or.inr hx))]
  have hxv : x ≠ v := fun hxv => h.new (hxv ▸ hx)
  exact List.mem_cons.trans (or_iff_right hxv)

theorem num_old {x : α} (hx : s.Visited x) : s'.num x = s.num x := by
  have hxv : x ≠ v := fun hxv => h.new (hxv ▸ hx)
  rw [h.grows.num (Search.visited_visit.mpr (Or.inr hx)), Search.num_visit_of_ne hxv]

/-- Nodes on the stack that were there before the call are those with
smaller numbers than `v`. -/
theorem num_lt_iff {x : α} (hx : x ∈ s'.stack) : s'.num x < s'.num v ↔ s.Visited x := by
  rw [h.num_self]
  constructor
  · intro hlt
    by_contra hold
    have hxv : x ≠ v := by
      rintro rfl
      rw [h.num_self] at hlt
      omega
    have hfresh := h.grows.fresh x (fun hvis => (Search.visited_visit.mp hvis).elim hxv hold)
      (h.sound.visited_of_stack hx)
    simp only [Search.visit] at hfresh
    omega
  · intro hold
    rw [h.num_old hold]
    exact h.before.num_lt x hold

/-- The calls for other new nodes are over. -/
theorem mem_left {x : α} (hx : s'.Visited x) (hold : ¬ s.Visited x) (hxv : x ≠ v) : x ∈ left' :=
  (h.grows.left x).mpr (Or.inr ⟨hx, fun hvis => (Search.visited_visit.mp hvis).elim hxv hold⟩)

/-- **Everything on the stack reaches `v`**: it reaches a node whose call is
not over, and of the new ones that is `v` only. -/
theorem reaches_self {x : α} (hx : x ∈ s'.stack) : ReflTransGen g.Step x v := by
  obtain ⟨z, hz, hzl, -, hxz⟩ := h.sound.reaches_open x hx
  refine hxz.trans (h.sound.reaches_up z hz v h.mem_stack ?_)
  by_cases hzv : z = v
  · rw [hzv]
  · have hold : s.Visited z := by
      by_contra hnew
      exact hzl (h.mem_left (h.sound.visited_of_stack hz) hnew hzv)
    have := (h.num_lt_iff hz).mpr hold
    omega

/-- An edge that leads to no node, or to one that has its component, is
passed over. -/
theorem passOver (hw : w ∈ g.nodes → s'.Visited w ∧ w ∉ s'.stack) :
    Calling g s s' left left' v (tried ++ [w]) where
  before := h.before
  new := h.new
  sound := h.sound
  grows := h.grows
  lowlink := h.lowlink
  reaches := h.reaches
  lowlink_le := h.lowlink_le
  lowest := h.lowest
  tried := by
    intro x hx hn
    rcases List.mem_append.mp hx with hx | hx
    · exact h.tried x hx hn
    · obtain rfl := List.mem_singleton.mp hx
      obtain ⟨hvis, hoff⟩ := hw hn
      refine ⟨hvis, fun hs => absurd ((h.mem_stack_iff ?_).mpr hs) hoff⟩
      exact h.before.visited_of_stack hs

/-- **An edge to a node on the stack** lowers the lowlink to its number. -/
theorem lower (hw : g.Step v w) (hon : w ∈ s'.stack) :
    Calling g s (s'.lower v (s'.num w)) left left' v (tried ++ [w]) := by
  have hlow : (s'.lower v (s'.num w)).lowlink v = min (s'.lowlink v) (s'.num w) := if_pos rfl
  refine
    { before := h.before
      new := h.new
      sound := h.sound.lower _
      grows := h.grows.lower _
      lowlink := fun x hx => ?_
      reaches := ?_
      lowlink_le := ?_
      lowest := fun x hx hold hxv y hy hxy => ?_
      tried := fun x hx hn => ?_ }
  · have hxv : x ≠ v := fun hxv => h.new (hxv ▸ hx)
    exact (if_neg hxv).trans (h.lowlink x hx)
  · rw [hlow]
    rcases le_total (s'.lowlink v) (s'.num w) with hle | hle
    · rw [min_eq_left hle]
      exact h.reaches
    · rw [min_eq_right hle]
      exact ⟨w, hon, rfl, .single hw⟩
  · rw [hlow]
    exact (min_le_left _ _).trans h.lowlink_le
  · rw [hlow]
    exact (min_le_left _ _).trans (h.lowest x hx hold hxv y hy hxy)
  · rw [hlow]
    rcases List.mem_append.mp hx with hx | hx
    · obtain ⟨hvis, hle⟩ := h.tried x hx hn
      exact ⟨hvis, fun hs => (min_le_left _ _).trans (hle hs)⟩
    · obtain rfl := List.mem_singleton.mp hx
      exact ⟨h.sound.visited_of_stack hon, fun _ => min_le_right _ _⟩

/-- **After the call for a new node** that an edge leads to, the lowlink goes
down to that of the node. -/
theorem follow (hw : g.Step v w) (hnew : ¬ s'.Visited w) (hc : Called g s' s'' left' left'' w) :
    Calling g s (s''.lower v (s''.lowlink w)) left left'' v (tried ++ [w]) := by
  have hself : s'.Visited v := h.sound.visited_of_stack h.mem_stack
  have hvlow : s''.lowlink v = s'.lowlink v := hc.lowlink v hself
  have hlow : (s''.lower v (s''.lowlink w)).lowlink v = min (s'.lowlink v) (s''.lowlink w) := by
    rw [← hvlow]
    exact if_pos rfl
  have hold : ∀ {x}, s.Visited x → s'.Visited x := fun hx =>
    h.grows.visited (Search.visited_visit.mpr (Or.inr hx))
  have hstack : ∀ {x}, x ∈ s'.stack → s'.Visited x := fun hx =>
    h.sound.visited_of_stack hx
  have hbefore : ∀ {x}, x ∈ s.stack → s.Visited x := fun hx =>
    h.before.visited_of_stack hx
  refine
    { before := h.before
      new := h.new
      sound := hc.sound.lower _
      grows := (h.grows.trans hc.grows).lower _
      lowlink := fun x hx => ?_
      reaches := ?_
      lowlink_le := ?_
      lowest := fun x hx hnx hxv y hy hxy => ?_
      tried := fun x hx hn => ?_ }
  · have hxv : x ≠ v := fun hxv => h.new (hxv ▸ hx)
    exact (if_neg hxv).trans ((hc.lowlink x (hold hx)).trans (h.lowlink x hx))
  · obtain ⟨y, hy, hynum, hvy⟩ := h.reaches
    have hkept : ∃ y ∈ s''.stack, s''.num y = s'.lowlink v ∧ ReflTransGen g.Step v y :=
      ⟨y, (hc.grows.stack y (hstack hy)).mpr hy, (hc.grows.num (hstack hy)).trans hynum, hvy⟩
    rw [hlow]
    by_cases hon : w ∈ s''.stack
    · rcases le_total (s'.lowlink v) (s''.lowlink w) with hle | hle
      · rw [min_eq_left hle]
        exact hkept
      · obtain ⟨z, hz, hznum, hwz⟩ := hc.reaches hon
        rw [min_eq_right hle]
        exact ⟨z, hz, hznum, .head hw hwz⟩
    · -- the node has its component, and its lowlink is its number, which is larger
      have hpop := hc.popped hon
      have hfresh := hc.grows.fresh w hnew hc.visited
      have hvnum := h.sound.num_lt v hself
      have hle := h.lowlink_le
      rw [min_eq_left (by omega)]
      exact hkept
  · rw [hlow]
    refine (min_le_left _ _).trans (h.lowlink_le.trans ?_)
    exact (hc.grows.num hself).ge
  · rw [hlow]
    by_cases hx' : s'.Visited x
    · have hxs : x ∈ s'.stack := (hc.grows.stack x hx').mp hx
      refine (min_le_left _ _).trans ((h.lowest x hxs hnx hxv y hy hxy).trans ?_)
      exact (hc.grows.num (hold (hbefore hy))).ge
    · refine (min_le_right _ _).trans (hc.lowest x hx hx' y ?_ hxy)
      exact (h.mem_stack_iff (hbefore hy)).mpr hy
  · rw [hlow]
    rcases List.mem_append.mp hx with hx | hx
    · obtain ⟨hvis, hle⟩ := h.tried x hx hn
      refine ⟨hc.grows.visited hvis, fun hs => (min_le_left _ _).trans ((hle hs).trans ?_)⟩
      exact (hc.grows.num hvis).ge
    · obtain rfl := List.mem_singleton.mp hx
      exact ⟨hc.visited, fun hs => absurd (hold (hbefore hs)) hnew⟩

/-! ### The end of a call -/

/-- All edges of `v` have been tried: so where a new node on the stack points
to has been visited. -/
theorem visited_of_step (hall : ∀ w ∈ g.edges v, w ∈ tried) {x y : α} (hx : x ∈ s'.stack)
    (hold : ¬ s.Visited x) (hxy : g.Step x y) : s'.Visited y := by
  by_cases hxv : x = v
  · subst hxv
    exact (h.tried y (hall y hxy.1) hxy.2).1
  · have hvis : s'.Visited x := h.sound.visited_of_stack hx
    exact h.sound.left_step x (h.mem_left hvis hold hxv) y hxy

/-- And if that is an old node on the stack, its number is not below the
lowlink of `v`. -/
theorem lowlink_le_of_step (hall : ∀ w ∈ g.edges v, w ∈ tried) {x y : α} (hx : x ∈ s'.stack)
    (hold : ¬ s.Visited x) (hxy : g.Step x y) (hy : y ∈ s.stack) : s'.lowlink v ≤ s'.num y := by
  by_cases hxv : x = v
  · subst hxv
    exact (h.tried y (hall y hxy.1) hxy.2).2 hy
  · exact h.lowest x hx hold hxv y hy hxy

/-- **A node whose lowlink is its number starts a component**: the new nodes
on the stack are those it is connected with, and no edge leads from them
but to components that are complete. -/
theorem connected_iff (hall : ∀ w ∈ g.edges v, w ∈ tried) (hroot : s'.lowlink v = s'.num v) :
    (∀ x, (x ∈ s'.stack ∧ s'.num v ≤ s'.num x) ↔ x ∈ g.nodes ∧ g.connectedTest v x = true) ∧
      ∀ x y, x ∈ s'.stack ∧ s'.num v ≤ s'.num x → g.Step x y →
        (y ∈ s'.stack ∧ s'.num v ≤ s'.num y) ∨ y ∈ s'.done := by
  have hnew : ∀ {x}, x ∈ s'.stack → s'.num v ≤ s'.num x → ¬ s.Visited x := by
    intro x hx hle hold
    have := (h.num_lt_iff hx).mpr hold
    omega
  have hclosed : ∀ x y, x ∈ s'.stack ∧ s'.num v ≤ s'.num x → g.Step x y →
      (y ∈ s'.stack ∧ s'.num v ≤ s'.num y) ∨ y ∈ s'.done := by
    rintro x y ⟨hx, hle⟩ hxy
    rcases (h.sound.visited_iff y).mp (h.visited_of_step hall hx (hnew hx hle) hxy) with hy | hy
    · refine Or.inl ⟨hy, ?_⟩
      -- an edge to an old node would have lowered the lowlink
      by_contra hlt
      have hyold : s.Visited y := (h.num_lt_iff hy).mp (by omega)
      have hlow := h.lowlink_le_of_step hall hx (hnew hx hle) hxy ((h.mem_stack_iff hyold).mp hy)
      omega
    · exact Or.inr hy
  have hchain : ∀ {x y}, x ∈ s'.stack ∧ s'.num v ≤ s'.num x → ReflTransGen g.Step x y →
      (y ∈ s'.stack ∧ s'.num v ≤ s'.num y) ∨ y ∈ s'.done := by
    intro x y hx hxy
    induction hxy with
    | refl => exact Or.inl hx
    | tail _ hs ih =>
      rcases ih with hy | hy
      · exact hclosed _ _ hy hs
      · exact Or.inr (h.sound.done_step _ hy _ hs)
  have hvn : v ∈ g.nodes := h.mem_nodes
  refine ⟨fun x => ⟨fun hx => ?_, fun hx => ?_⟩, hclosed⟩
  · -- the node reaches one whose call is not over, and among the new ones that is `v`
    have hxn : x ∈ g.nodes :=
      h.sound.visited_nodes x ((h.sound.visited_iff x).mpr (Or.inl hx.1))
    have hvx : ReflTransGen g.Step v x := h.sound.reaches_up v h.mem_stack x hx.1 hx.2
    obtain ⟨z, hz, hzl, -, hxz⟩ := h.sound.reaches_open x hx.1
    have hxv : ReflTransGen g.Step x v := by
      rcases hchain hx hxz with ⟨-, hle⟩ | hzd
      · by_cases hzv : z = v
        · exact hzv ▸ hxz
        · have hzvis : s'.Visited z := h.sound.visited_of_stack hz
          exact absurd (h.mem_left hzvis (hnew hz hle) hzv) hzl
      · exact absurd hzd (h.sound.not_done z hz)
    exact ⟨hxn, (connectedTest_iff hvn hxn).mpr (connected_iff_reaches.mpr ⟨hvx, hxv⟩)⟩
  · obtain ⟨hxn, htest⟩ := hx
    obtain ⟨hvx, hxv⟩ := connected_iff_reaches.mp ((connectedTest_iff hvn hxn).mp htest)
    rcases hchain ⟨h.mem_stack, le_refl _⟩ hvx with hx | hxd
    · exact hx
    · exact absurd (h.sound.mem_done_of_reaches hxd hxv) (h.sound.not_done v h.mem_stack)

/-- The calls that are over, with the one for `v`. -/
theorem left_cons (x : α) : x ∈ v :: left' ↔ x ∈ left ∨ (s'.Visited x ∧ ¬ s.Visited x) := by
  have hvis : s'.Visited v := h.sound.visited_of_stack h.mem_stack
  rw [List.mem_cons, h.grows.left, Search.visited_visit]
  constructor
  · rintro (rfl | hx | ⟨hx, hold⟩)
    · exact Or.inr ⟨hvis, h.new⟩
    · exact Or.inl hx
    · exact Or.inr ⟨hx, fun hs => hold (Or.inr hs)⟩
  · rintro (hx | ⟨hx, hold⟩)
    · exact Or.inr (Or.inl hx)
    · by_cases hxv : x = v
      · exact Or.inl hxv
      · exact Or.inr (Or.inr ⟨hx, fun hs => hs.elim hxv hold⟩)

/-- From a node that is left now all edges were looked at. -/
theorem left_step_cons (hall : ∀ w ∈ g.edges v, w ∈ tried) :
    ∀ x ∈ v :: left', ∀ y, g.Step x y → s'.Visited y := by
  intro x hx y hxy
  rcases List.mem_cons.mp hx with rfl | hx
  · exact h.visited_of_step hall h.mem_stack h.new hxy
  · exact h.sound.left_step x hx y hxy

/-- The call has left what was there before it in its place. -/
theorem extends_left : Extends s s' left (v :: left') where
  indices x hx := by
    have hxv : x ≠ v := fun hxv => h.new (hxv ▸ hx)
    rw [h.grows.indices x (Search.visited_visit.mpr (Or.inr hx))]
    exact if_neg hxv
  index_le := (Nat.le_succ _).trans h.grows.index_le
  fresh x hold hx := by
    have hle : s.index + 1 ≤ s'.num x ∨ x = v := by
      by_cases hxv : x = v
      · exact Or.inr hxv
      · exact Or.inl (h.grows.fresh x (fun hs => (Search.visited_visit.mp hs).elim hxv hold) hx)
    rcases hle with hle | rfl
    · omega
    · rw [h.num_self]
  stack _ hx := h.mem_stack_iff hx
  left := h.left_cons

theorem left_visited_cons : ∀ x ∈ v :: left', s'.Visited x := by
  intro x hx
  rcases List.mem_cons.mp hx with rfl | hx
  · exact (h.sound.visited_iff x).mpr (Or.inl h.mem_stack)
  · exact h.sound.left_visited x hx

/-- **A node that reaches an older one is left on the stack.** -/
theorem stay (hall : ∀ w ∈ g.edges v, w ∈ tried) (hlow : s'.lowlink v ≠ s'.num v) :
    Called g s s' left (v :: left') v := by
  obtain ⟨y, hy, hynum, hvy⟩ := h.reaches
  have hle := h.lowlink_le
  -- the older node reaches one whose call is not over, so `v` is not needed for that
  have hopen : ∀ x ∈ s'.stack, ∃ z ∈ s'.stack, z ∉ v :: left' ∧ s'.num z ≤ s'.num x ∧
      ReflTransGen g.Step x z := by
    intro x hx
    obtain ⟨z, hz, hzl, hzx, hxz⟩ := h.sound.reaches_open x hx
    by_cases hzv : z = v
    · obtain ⟨z', hz', hzl', hzy, hyz⟩ := h.sound.reaches_open y hy
      have hzv' : z' ≠ v := by
        rintro rfl
        omega
      subst hzv
      exact ⟨z', hz', by simp [hzv', hzl'], by omega, (hxz.trans hvy).trans hyz⟩
    · exact ⟨z, hz, by simp [hzv, hzl], hzx, hxz⟩
  have hsccs : (lastOfEach g.connectedTest (v :: left').reverse).filter
      (fun x => decide (x ∈ s'.done)) = (lastOfEach g.connectedTest left'.reverse).filter
        fun x => decide (x ∈ s'.done) := by
    have hv : v ∉ s'.done := h.sound.not_done v h.mem_stack
    rw [List.reverse_cons, lastOfEach_concat, List.filter_append, List.filter_filter]
    simp only [List.filter_cons, hv, decide_false, Bool.false_eq_true, if_false, List.filter_nil,
      List.append_nil]
    refine List.filter_congr fun x _ => ?_
    by_cases hx : x ∈ s'.done
    · simp [hx, h.sound.connectedTest_of_done hx h.mem_stack]
    · simp [hx]
  exact
    { sound := { h.sound with
        left_visited := h.left_visited_cons
        done_left := fun x hx => List.mem_cons_of_mem v (h.sound.done_left x hx)
        left_step := h.left_step_cons hall
        reaches_open := hopen
        sccs_eq := by rw [hsccs]; exact h.sound.sccs_eq }
      grows := h.extends_left
      visited := h.left_visited_cons v List.mem_cons_self
      lowlink := h.lowlink
      reaches := fun _ => h.reaches
      popped := fun hoff => absurd h.mem_stack hoff
      lowest := fun x hx hold y hy hxy => h.lowlink_le_of_step hall hx hold hxy hy }

/-- A new node on the stack has a number that is not below that of `v`. -/
theorem visited_iff_mem_rest {scc rest : List α} (hsplit : Splits s'.num v s'.stack scc rest)
    {x : α} (hx : x ∈ s'.stack) : s.Visited x ↔ x ∈ rest := by
  rw [← h.num_lt_iff hx, hsplit.mem_rest]
  exact (and_iff_right hx).symm

/-- **The nodes left last in the components found** are those of before, and
`v` for the new component. -/
theorem lastOfEach_complete {scc rest : List α} (hsplit : Splits s'.num v s'.stack scc rest)
    (hclass : ∀ x, x ∈ scc ↔ x ∈ g.nodes ∧ g.connectedTest v x = true) :
    ((lastOfEach g.connectedTest (v :: left').reverse).filter
      fun x => decide (x ∈ (s'.complete g.nodes scc rest).done)) =
        ((lastOfEach g.connectedTest left'.reverse).filter
          fun x => decide (x ∈ s'.done)) ++ [v] := by
  have hdone : ∀ x, x ∈ (s'.complete g.nodes scc rest).done ↔ x ∈ s'.done ∨ x ∈ scc :=
    fun x => Search.mem_done_complete
  have hv : v ∈ (s'.complete g.nodes scc rest).done :=
    (hdone v).mpr (Or.inr ((hsplit.mem_scc v).mpr ⟨h.mem_stack, le_refl _⟩))
  rw [List.reverse_cons, lastOfEach_concat, List.filter_append, List.filter_filter]
  simp only [List.filter_cons, hv, decide_true, if_true, List.filter_nil]
  congr 1
  refine List.filter_congr fun x _ => ?_
  by_cases hxd : x ∈ s'.done
  · simp [hdone, hxd, h.sound.connectedTest_of_done hxd h.mem_stack]
  · by_cases hxc : x ∈ scc
    · -- a member of the new component is connected with `v`, which is left after it
      obtain ⟨hxn, htest⟩ := (hclass x).mp hxc
      have hvn : v ∈ g.nodes := h.mem_nodes
      have hxv := (connectedTest_iff hxn hvn).mpr ((connectedTest_iff hvn hxn).mp htest).symm
      simp [hxd, hxv]
    · simp [hdone, hxd, hxc]

/-- **A complete component leaves the stack**, and all that is kept is kept. -/
theorem sound_complete {scc rest : List α} (hall : ∀ w ∈ g.edges v, w ∈ tried)
    (hroot : s'.lowlink v = s'.num v)
    (hsorted : (scc.mergeSort fun a b => g.nodes.idxOf a ≤ g.nodes.idxOf b) =
      g.nodes.filter (g.connectedTest v))
    (hsplit : Splits s'.num v s'.stack scc rest) :
    Sound g (s'.complete g.nodes scc rest) (v :: left') := by
  obtain ⟨hclass, hclosed⟩ := h.connected_iff hall hroot
  have hsound := h.sound
  have hdone : ∀ x, x ∈ (s'.complete g.nodes scc rest).done ↔ x ∈ s'.done ∨ x ∈ scc :=
    fun x => Search.mem_done_complete
  have hscc : ∀ x ∈ scc, x ∈ s'.stack := fun x hx => hsplit.mem_stack.mpr (Or.inl hx)
  have hrest : ∀ x ∈ rest, x ∈ s'.stack := fun x hx => hsplit.mem_stack.mpr (Or.inr hx)
  refine
    { visited_nodes := hsound.visited_nodes
      num_lt := hsound.num_lt
      stack_sorted := ?_
      onStack_iff := fun x => ?_
      visited_iff := fun x => ?_
      not_done := fun x hx hxd => ?_
      left_visited := h.left_visited_cons
      done_left := fun x hx => ?_
      left_step := h.left_step_cons hall
      done_step := fun x hx y hxy => ?_
      reaches_up := fun x hx y hy => hsound.reaches_up x (hrest x hx) y (hrest y hy)
      reaches_open := fun x hx => ?_
      sccs_eq := ?_
      apart := ?_ }
  · have hs := hsound.stack_sorted
    rw [hsplit.append] at hs
    exact (List.pairwise_append.mp hs).2.1
  · by_cases hxc : x ∈ scc
    · have hx : x ∉ rest := fun hx => hsplit.not_mem_scc hx hxc
      simp [Search.complete, hxc, hx]
    · simp [Search.complete, hxc, hsound.onStack_iff, hsplit.mem_stack]
  · refine (hsound.visited_iff x).trans ?_
    rw [hdone, hsplit.mem_stack, or_comm (a := x ∈ scc), or_assoc, or_comm (a := x ∈ scc)]
    rfl
  · rcases (hdone x).mp hxd with hxd | hxc
    · exact hsound.not_done x (hrest x hx) hxd
    · exact hsplit.not_mem_scc hx hxc
  · rcases (hdone x).mp hx with hxd | hxc
    · exact List.mem_cons_of_mem v (hsound.done_left x hxd)
    · have hnew : ¬ s.Visited x := fun hs =>
        hsplit.not_mem_scc ((h.visited_iff_mem_rest hsplit (hscc x hxc)).mp hs) hxc
      exact (h.left_cons x).mpr (Or.inr ⟨hsound.visited_of_stack (hscc x hxc), hnew⟩)
  · rcases (hdone x).mp hx with hxd | hxc
    · exact (hdone y).mpr (Or.inl (hsound.done_step x hxd y hxy))
    · rcases hclosed x y ((hsplit.mem_scc x).mp hxc) hxy with hy | hy
      · exact (hdone y).mpr (Or.inr ((hsplit.mem_scc y).mpr hy))
      · exact (hdone y).mpr (Or.inl hy)
  · obtain ⟨hxs, hlt⟩ := (hsplit.mem_rest x).mp hx
    obtain ⟨z, hz, hzl, hzx, hxz⟩ := hsound.reaches_open x hxs
    have hzx' : s'.num z < s'.num v := by omega
    have hzv : z ≠ v := by
      rintro rfl
      omega
    exact ⟨z, (hsplit.mem_rest z).mpr ⟨hz, hzx'⟩, by simp [hzv, hzl], hzx, hxz⟩
  · have hclass' : ∀ x, x ∈ scc ↔ x ∈ g.nodes ∧ g.connectedTest v x = true := fun x =>
      (hsplit.mem_scc x).trans (hclass x)
    rw [h.lastOfEach_complete hsplit hclass', List.map_append, ← hsound.sccs_eq,
      List.map_singleton, ← hsorted]
    rfl
  · refine List.pairwise_append.mpr ⟨hsound.apart, List.pairwise_singleton .., ?_⟩
    intro c hc c' hc' x hx y hy hxy
    obtain rfl := List.mem_singleton.mp hc'
    have hyd := hsound.done_step x (List.mem_flatten.mpr ⟨c, hc, hx⟩) y hxy
    exact hsound.not_done y (hscc y (List.mem_mergeSort.mp hy)) hyd

/-- **A node that starts a component takes it off the stack.** -/
theorem pop (hnd : g.nodes.Nodup) (hall : ∀ w ∈ g.edges v, w ∈ tried)
    (hroot : s'.lowlink v = s'.num v) :
    ∃ s'', s'.close? g.nodes v = some s'' ∧ Called g s s'' left (v :: left') v := by
  obtain ⟨hclass, -⟩ := h.connected_iff hall hroot
  obtain ⟨scc, rest, hpop, hsplit⟩ := exists_popTo?_eq h.sound.stack_sorted h.mem_stack
  have hsorted : (scc.mergeSort fun a b => g.nodes.idxOf a ≤ g.nodes.idxOf b) =
      g.nodes.filter (g.connectedTest v) := by
    have hstack : s'.stack.Nodup := h.sound.stack_sorted.imp fun hlt heq => by
      rw [heq] at hlt
      omega
    rw [hsplit.append] at hstack
    refine mergeSort_idxOf_eq_filter hnd (List.nodup_append.mp hstack).1 fun x => ?_
    rw [hsplit.mem_scc, hclass]
  have hindex : s'.indices v = some (s'.lowlink v) := by
    rw [hroot]
    exact Search.indices_eq_some_iff.mpr ⟨h.sound.visited_of_stack h.mem_stack, rfl⟩
  have hclose : s'.close? g.nodes v = some (s'.complete g.nodes scc rest) := by
    rw [Search.close?, if_pos hindex, hpop]
    rfl
  have hrest : ∀ x ∈ rest, x ∈ s'.stack := fun x hx => hsplit.mem_stack.mpr (Or.inr hx)
  -- only old nodes stay
  have hold : ∀ x ∈ rest, s.Visited x := fun x hx =>
    (h.visited_iff_mem_rest hsplit (hrest x hx)).mpr hx
  refine ⟨_, hclose,
    { sound := h.sound_complete hall hroot hsorted hsplit
      grows := { h.extends_left with stack := fun x hx => ?_ }
      visited := h.left_visited_cons v List.mem_cons_self
      lowlink := h.lowlink
      reaches := fun hv => absurd (hold v hv) h.new
      popped := fun _ => hroot.ge
      lowest := fun x hx hnew => absurd (hold x hx) hnew }⟩
  rw [← h.mem_stack_iff hx]
  exact ⟨hrest x, fun hxs => (h.visited_iff_mem_rest hsplit hxs).mp hx⟩

/-- **The call ends**, with the node left on the stack or not. -/
theorem close (hnd : g.nodes.Nodup) (hall : ∀ w ∈ g.edges v, w ∈ tried) :
    ∃ s'', s'.close? g.nodes v = some s'' ∧ Called g s s'' left (v :: left') v := by
  by_cases hroot : s'.lowlink v = s'.num v
  · exact h.pop hnd hall hroot
  · refine ⟨s', ?_, h.stay hall hroot⟩
    rw [Search.close?, if_neg]
    exact fun hindex => hroot (Search.indices_eq_some_iff.mp hindex).2.symm

end Calling

end Digraph

end WireModel
