import Mathlib.Logic.Relation
import Mathlib.Data.List.Chain
import Mathlib.Data.List.Duplicate
import Mathlib.Data.List.Nodup
import Mathlib.Data.List.Perm.Subperm
import WireModel.Graph.Component

/-!
# Components — reachability, and what a cycle is

The search of `WireModel.Graph.Reach` finds exactly the nodes that a
chain of steps leads to, where a step is an edge that stays among the
nodes. From it follows what the components are: classes of nodes that
reach each other (`exists_of_mem_components`), with every node in one
of them (`exists_mem_components`), and that a cyclic component exists
exactly when some node reaches itself (`exists_isCyclic_iff`). That none
does shows in the length of walks (`acyclic_iff_hasWalk`).
-/

namespace WireModel

namespace Digraph

open Relation

variable {α : Type} [DecidableEq α] {g : Digraph α}

/-- An edge that stays among the nodes. -/
def Step (g : Digraph α) (u v : α) : Prop := v ∈ g.edges u ∧ v ∈ g.nodes

/-! ## The search -/

/-- What was seen stays seen. -/
theorem subset_closure {seen todo : List α} : seen ⊆ g.closure seen todo := by
  fun_induction closure g seen todo with
  | case1 seen => exact fun _ h => h
  | case2 seen v rest h ih => exact fun x hx => ih (List.mem_cons_of_mem v hx)
  | case3 seen v rest h ih => exact ih

/-- A node to look at is found. -/
theorem mem_closure_of_mem_todo {seen todo : List α} {v : α} (hv : v ∈ todo)
    (hn : v ∈ g.nodes) : v ∈ g.closure seen todo := by
  fun_induction closure g seen todo with
  | case1 seen => simp at hv
  | case2 seen u rest h ih =>
    rcases List.mem_cons.mp hv with rfl | hv
    · exact subset_closure (List.mem_cons_self ..)
    · exact ih (List.mem_append_right _ hv)
  | case3 seen u rest h ih =>
    rcases List.mem_cons.mp hv with rfl | hv
    · have hs : v ∈ seen := by
        by_contra hs
        exact h ⟨hn, hs⟩
      exact subset_closure hs
    · exact ih hv

/-- **The search is sound**: it finds nodes that were seen, and nodes a
chain leads to from one it was asked to look at. -/
theorem closure_sound {seen todo : List α} {x : α} (hx : x ∈ g.closure seen todo) :
    x ∈ seen ∨ ∃ v ∈ todo, v ∈ g.nodes ∧ ReflTransGen g.Step v x := by
  fun_induction closure g seen todo with
  | case1 seen => exact Or.inl hx
  | case2 seen v rest h ih =>
    rcases ih hx with hs | ⟨u, hu, hn, hr⟩
    · rcases List.mem_cons.mp hs with rfl | hs
      · exact Or.inr ⟨x, List.mem_cons_self .., h.1, ReflTransGen.refl⟩
      · exact Or.inl hs
    · rcases List.mem_append.mp hu with hu | hu
      · exact Or.inr ⟨v, List.mem_cons_self .., h.1, ReflTransGen.head ⟨hu, hn⟩ hr⟩
      · exact Or.inr ⟨u, List.mem_cons_of_mem v hu, hn, hr⟩
  | case3 seen v rest h ih =>
    rcases ih hx with hs | ⟨u, hu, hn, hr⟩
    · exact Or.inl hs
    · exact Or.inr ⟨u, List.mem_cons_of_mem v hu, hn, hr⟩

/-- **The search is closed under steps**, provided every step from a node
it has seen leads to one it has seen or is to look at. -/
theorem closure_closed {seen todo : List α}
    (hseen : ∀ u ∈ seen, ∀ v, g.Step u v → v ∈ seen ∨ v ∈ todo) :
    ∀ u ∈ g.closure seen todo, ∀ v, g.Step u v → v ∈ g.closure seen todo := by
  fun_induction closure g seen todo with
  | case1 seen =>
    intro u hu v hv
    exact (hseen u hu v hv).elim id fun h => by simp at h
  | case2 seen w rest h ih =>
    refine ih fun u hu v hv => ?_
    -- the steps from the node that is seen now are to be looked at
    rcases List.mem_cons.mp hu with rfl | hu
    · exact Or.inr (List.mem_append_left _ hv.1)
    · rcases hseen u hu v hv with hs | ht
      · exact Or.inl (List.mem_cons_of_mem w hs)
      · rcases List.mem_cons.mp ht with rfl | ht
        · exact Or.inl (List.mem_cons_self ..)
        · exact Or.inr (List.mem_append_right _ ht)
  | case3 seen w rest h ih =>
    refine ih fun u hu v hv => ?_
    rcases hseen u hu v hv with hs | ht
    · exact Or.inl hs
    · rcases List.mem_cons.mp ht with rfl | ht
      · refine Or.inl ?_
        by_contra hs
        exact h ⟨hv.2, hs⟩
      · exact Or.inr ht

/-- **What a node reaches**: the nodes a chain of one step or more leads
to. -/
theorem mem_reach_iff {u v : α} : v ∈ g.reach u ↔ TransGen g.Step u v := by
  constructor
  · intro h
    rcases closure_sound h with h | ⟨w, hw, hn, hr⟩
    · simp at h
    · exact TransGen.head' ⟨hw, hn⟩ hr
  · intro h
    induction h with
    | single hv => exact mem_closure_of_mem_todo hv.1 hv.2
    | tail _ hv ih => exact closure_closed (by simp) _ ih _ hv

omit [DecidableEq α] in
/-- A chain ends at a node. -/
theorem mem_nodes_of_transGen {u v : α} (h : TransGen g.Step u v) : v ∈ g.nodes := by
  cases h with
  | single h => exact h.2
  | tail _ h => exact h.2

/-! ## The order of leaving -/

omit [DecidableEq α] in
/-- The nodes a walk is to enter next, as its induction principle writes
them. -/
theorem enter_attach {l : List α} :
    (l.attach.map fun x => match x with | ⟨x, _⟩ => Visit.enter x) = l.map Visit.enter := by
  simp

/-- **A walk leaves the nodes it was asked to enter or to leave, and what
it finds on the way**; nothing else. -/
theorem mem_walk_of_mem {seen left : List α} {todo : List (Visit α)} {x : α}
    (h : x ∈ left ∨ .leave x ∈ todo ∨ (.enter x ∈ todo ∧ x ∈ g.nodes ∧ x ∉ seen)) :
    x ∈ g.walk seen left todo := by
  fun_induction walk g seen left todo with
  | case1 seen left => simpa using h
  | case2 seen left v rest ih =>
    refine ih ?_
    rcases h with h | h | ⟨h, hn⟩
    · exact Or.inl (List.mem_cons_of_mem v h)
    · rcases List.mem_cons.mp h with h | h
      · exact Or.inl (by cases h; exact List.mem_cons_self ..)
      · exact Or.inr (Or.inl h)
    · rcases List.mem_cons.mp h with h | h
      · cases h
      · exact Or.inr (Or.inr ⟨h, hn⟩)
  | case3 seen left v rest hv ih =>
    rw [enter_attach] at ih
    refine ih ?_
    -- `v` is entered: it is seen now, and is left after what it leads to
    rcases h with h | h | ⟨h, hn, hs⟩
    · exact Or.inl h
    · rcases List.mem_cons.mp h with h | h
      · cases h
      · exact Or.inr (Or.inl (by simp [h]))
    · by_cases hxv : x = v
      · exact Or.inr (Or.inl (by simp [hxv]))
      · refine Or.inr (Or.inr ⟨?_, hn, by simp [hxv, hs]⟩)
        rcases List.mem_cons.mp h with h | h
        · cases h; exact absurd rfl hxv
        · simp [h]
  | case4 seen left v rest hv ih =>
    refine ih ?_
    -- `v` was seen or is no node, so it is not the one asked for
    rcases h with h | h | ⟨h, hn, hs⟩
    · exact Or.inl h
    · rcases List.mem_cons.mp h with h | h
      · cases h
      · exact Or.inr (Or.inl h)
    · rcases List.mem_cons.mp h with h | h
      · cases h; exact absurd ⟨hn, hs⟩ hv
      · exact Or.inr (Or.inr ⟨h, hn, hs⟩)

/-- And a walk leaves nodes only. -/
theorem mem_nodes_of_mem_walk {seen left : List α} {todo : List (Visit α)} {x : α}
    (hl : ∀ v ∈ left, v ∈ g.nodes) (ht : ∀ v, .leave v ∈ todo → v ∈ g.nodes)
    (h : x ∈ g.walk seen left todo) : x ∈ g.nodes := by
  fun_induction walk g seen left todo with
  | case1 seen left => exact hl x (by simpa using h)
  | case2 seen left v rest ih =>
    refine ih ?_ (fun u hu => ht u (List.mem_cons_of_mem _ hu)) h
    intro u hu
    rcases List.mem_cons.mp hu with rfl | hu
    · exact ht u (List.mem_cons_self ..)
    · exact hl u hu
  | case3 seen left v rest hv ih =>
    rw [enter_attach] at ih
    refine ih hl (fun u hu => ?_) h
    rcases List.mem_append.mp hu with hu | hu
    · simp at hu
    · rcases List.mem_cons.mp hu with hu | hu
      · cases hu; exact hv.1
      · exact ht u (List.mem_cons_of_mem _ hu)
  | case4 seen left v rest hv ih =>
    exact ih hl (fun u hu => ht u (List.mem_cons_of_mem _ hu)) h

/-- **The walk through a graph leaves exactly its nodes.** -/
theorem mem_leaving_iff {v : α} : v ∈ g.leaving ↔ v ∈ g.nodes := by
  constructor
  · exact mem_nodes_of_mem_walk (by simp) (by simp)
  · intro hv
    exact mem_walk_of_mem (Or.inr (Or.inr ⟨List.mem_map_of_mem hv, hv, by simp⟩))

/-! ## The classes -/

/-- Two nodes that are the same or reach each other. -/
def Connected (g : Digraph α) (u v : α) : Prop :=
  u = v ∨ (TransGen g.Step u v ∧ TransGen g.Step v u)

omit [DecidableEq α] in
theorem Connected.symm {u v : α} (h : g.Connected u v) : g.Connected v u :=
  h.imp Eq.symm And.symm

omit [DecidableEq α] in
theorem Connected.trans {u v w : α} (h : g.Connected u v) (h' : g.Connected v w) :
    g.Connected u w := by
  rcases h with rfl | ⟨huv, hvu⟩
  · exact h'
  · rcases h' with rfl | ⟨hvw, hwv⟩
    · exact Or.inr ⟨huv, hvu⟩
    · exact Or.inr ⟨huv.trans hvw, hwv.trans hvu⟩

/-- The entry of a node in a table made from a list that holds it. -/
theorem find?_table {β : Type} {f : α → β} {l : List α} {u : α} (h : u ∈ l) :
    (l.map fun v => (v, f v)).find? (·.1 == u) = some (u, f u) := by
  induction l with
  | nil => simp at h
  | cons a l ih =>
    by_cases ha : a = u
    · simp [ha]
    · have hu : u ∈ l := (List.mem_cons.mp h).resolve_left (Ne.symm ha)
      simp only [List.map_cons]
      rw [List.find?_cons_of_neg (by simpa using ha)]
      exact ih hu

/-- The test by which the components are made, from the table of what
every node reaches. -/
def connectedTest (g : Digraph α) (u v : α) : Bool :=
  let table := g.nodes.map fun v => (v, g.reach v)
  let reaches (u v : α) : Bool :=
    match table.find? (·.1 == u) with
    | some (_, vs) => vs.contains v
    | none => false
  u == v || (reaches u v && reaches v u)

theorem components_eq :
    g.components = (lastOfEach g.connectedTest g.leaving).map fun v =>
      g.nodes.filter (g.connectedTest v) := rfl

/-- **The test is right on nodes.** -/
theorem connectedTest_iff {u v : α} (hu : u ∈ g.nodes) (hv : v ∈ g.nodes) :
    g.connectedTest u v = true ↔ g.Connected u v := by
  simp only [connectedTest, Connected, find?_table hu, find?_table hv, Bool.or_eq_true,
    Bool.and_eq_true, beq_iff_eq, List.contains_iff_mem, mem_reach_iff]

omit [DecidableEq α] in
/-- What is kept of a list is in it. -/
theorem lastOfEach_subset {c : α → α → Bool} {l : List α} : lastOfEach c l ⊆ l := by
  induction l with
  | nil => simp [lastOfEach]
  | cons a l ih =>
    rw [lastOfEach]
    split
    · exact fun x hx => List.mem_cons_of_mem a (ih hx)
    · intro x hx
      rcases List.mem_cons.mp hx with rfl | hx
      · exact List.mem_cons_self ..
      · exact List.mem_cons_of_mem a (ih hx)

omit [DecidableEq α] in
/-- **Every member of a list is connected with one that is kept.** -/
theorem exists_mem_lastOfEach {c : α → α → Bool} {l : List α} {P : α → α → Prop}
    (hrefl : ∀ a, P a a) (htrans : ∀ a b d, P a b → P b d → P a d)
    (hc : ∀ a ∈ l, ∀ b ∈ l, c a b = true → P a b) {v : α} (hv : v ∈ l) :
    ∃ u ∈ lastOfEach c l, P v u := by
  induction l generalizing v with
  | nil => simp at hv
  | cons a l ih =>
    have hl : ∀ {v}, v ∈ l → ∃ u ∈ lastOfEach c l, P v u := fun hv =>
      ih (fun x hx y hy => hc x (List.mem_cons_of_mem a hx) y (List.mem_cons_of_mem a hy)) hv
    rw [lastOfEach]
    split
    · -- `a` is dropped for a later member that it is connected with
      rename_i hany
      obtain ⟨b, hb, hab⟩ := List.any_eq_true.mp hany
      rcases List.mem_cons.mp hv with rfl | hv
      · obtain ⟨u, hu, hbu⟩ := hl hb
        exact ⟨u, hu, htrans _ b _
          (hc _ (List.mem_cons_self ..) b (List.mem_cons_of_mem _ hb) hab) hbu⟩
      · exact hl hv
    · rcases List.mem_cons.mp hv with rfl | hv
      · exact ⟨v, List.mem_cons_self .., hrefl v⟩
      · obtain ⟨u, hu, hvu⟩ := hl hv
        exact ⟨u, List.mem_cons_of_mem a hu, hvu⟩

/-- **A component has exactly the nodes connected with one of them.** -/
theorem exists_of_mem_components {c : List α} (hc : c ∈ g.components) :
    ∃ v ∈ g.nodes, c = g.nodes.filter (g.connectedTest v) ∧
      ∀ u, u ∈ c ↔ u ∈ g.nodes ∧ g.Connected v u := by
  rw [components_eq, List.mem_map] at hc
  obtain ⟨v, hv, rfl⟩ := hc
  have hn : v ∈ g.nodes := mem_leaving_iff.mp (lastOfEach_subset hv)
  refine ⟨v, hn, rfl, fun u => ?_⟩
  rw [List.mem_filter]
  exact and_congr_right fun hu => connectedTest_iff hn hu

/-- **Every node is in a component.** -/
theorem exists_mem_components {v : α} (hv : v ∈ g.nodes) : ∃ c ∈ g.components, v ∈ c := by
  have hP : ∀ a ∈ g.leaving, ∀ b ∈ g.leaving, g.connectedTest a b = true → g.Connected a b :=
    fun a ha b hb => (connectedTest_iff (mem_leaving_iff.mp ha) (mem_leaving_iff.mp hb)).mp
  obtain ⟨u, hu, hvu⟩ := exists_mem_lastOfEach (P := g.Connected) (fun a => Or.inl rfl)
    (fun _ _ _ => Connected.trans) hP (mem_leaving_iff.mpr hv)
  have hn : u ∈ g.nodes := mem_leaving_iff.mp (lastOfEach_subset hu)
  refine ⟨g.nodes.filter (g.connectedTest u), ?_, ?_⟩
  · rw [components_eq]
    exact List.mem_map_of_mem hu
  · exact List.mem_filter.mpr ⟨hv, (connectedTest_iff hn hv).mpr hvu.symm⟩

/-- **Components are disjoint**: those with connected members are the
same. -/
theorem eq_of_connected {c c' : List α} (hc : c ∈ g.components) (hc' : c' ∈ g.components)
    {u v : α} (hu : u ∈ c) (hv : v ∈ c') (h : g.Connected u v) : c = c' := by
  obtain ⟨r, hr, rfl, hmem⟩ := exists_of_mem_components hc
  obtain ⟨r', hr', rfl, hmem'⟩ := exists_of_mem_components hc'
  have hrr : g.Connected r r' :=
    (((hmem u).mp hu).2.trans h).trans ((hmem' v).mp hv).2.symm
  refine List.filter_congr fun x hx => Bool.eq_iff_iff.mpr ?_
  rw [connectedTest_iff hr hx, connectedTest_iff hr' hx]
  exact ⟨hrr.symm.trans, hrr.trans⟩

/-- Every node has a component, by its number. -/
theorem exists_findIdx?_components {v : α} (hv : v ∈ g.nodes) :
    ∃ n, g.components.findIdx? (·.contains v) = some n := by
  obtain ⟨c, hc, hvc⟩ := exists_mem_components hv
  rw [← Option.isSome_iff_exists, List.findIdx?_isSome]
  exact List.any_eq_true.mpr ⟨c, hc, List.contains_iff_mem.mpr hvc⟩

omit [DecidableEq α] in
/-- Tests that agree on a list find the same place in it. -/
theorem findIdx?_congr {p q : α → Bool} {l : List α} (h : ∀ a ∈ l, p a = q a) :
    l.findIdx? p = l.findIdx? q := by
  induction l with
  | nil => rfl
  | cons a l ih =>
    rw [List.findIdx?_cons, List.findIdx?_cons, h a (List.mem_cons_self ..),
      ih fun b hb => h b (List.mem_cons_of_mem a hb)]

/-- **Nodes have the same number exactly when they are connected.** -/
theorem findIdx?_components_eq_iff {u v : α} (hu : u ∈ g.nodes) (hv : v ∈ g.nodes) :
    g.components.findIdx? (·.contains u) = g.components.findIdx? (·.contains v) ↔
      g.Connected u v := by
  constructor
  · intro heq
    obtain ⟨n, hn⟩ := exists_findIdx?_components hu
    obtain ⟨hlt, hun, -⟩ := List.findIdx?_eq_some_iff_getElem.mp hn
    obtain ⟨hlt', hvn, -⟩ := List.findIdx?_eq_some_iff_getElem.mp (heq.symm.trans hn)
    obtain ⟨r, -, -, hmem⟩ := exists_of_mem_components (List.getElem_mem hlt)
    have hru := ((hmem u).mp (List.contains_iff_mem.mp hun)).2
    have hrv := ((hmem v).mp (List.contains_iff_mem.mp hvn)).2
    exact hru.symm.trans hrv
  · intro h
    -- connected nodes are in the same components
    refine findIdx?_congr fun c hc => ?_
    obtain ⟨r, -, -, hmem⟩ := exists_of_mem_components hc
    rw [Bool.eq_iff_iff, List.contains_iff_mem, List.contains_iff_mem, hmem, hmem]
    exact ⟨fun hr => ⟨hv, hr.2.trans h⟩, fun hr => ⟨hu, hr.2.trans h.symm⟩⟩

/-! ## Cycles -/

omit [DecidableEq α] in
/-- A chain from a node back to it passes, in its first step, a node
connected with it. -/
theorem exists_step_of_cycle {v : α} (h : TransGen g.Step v v) :
    ∃ u ∈ g.edges v, u ∈ g.nodes ∧ g.Connected v u := by
  obtain ⟨u, hu, hr⟩ := TransGen.head'_iff.mp h
  refine ⟨u, hu.1, hu.2, ?_⟩
  rcases reflTransGen_iff_eq_or_transGen.mp hr with rfl | hr
  · exact Or.inl rfl
  · exact Or.inr ⟨TransGen.single hu, hr⟩

/-- **A component is a cycle exactly when its members reach
themselves.** A component of one member is one only by an edge to
itself, and in a larger one every member reaches the others and comes
back. -/
theorem isCyclic_iff (hnd : g.nodes.Nodup) {c : List α} (hc : c ∈ g.components) {v : α}
    (hv : v ∈ c) : g.isCyclic c = true ↔ TransGen g.Step v v := by
  obtain ⟨r, hr, hcr, hmem⟩ := exists_of_mem_components hc
  have hcn : c.Nodup := by
    rw [hcr]
    exact hnd.filter _
  have hconn : ∀ u ∈ c, g.Connected v u := fun u hu =>
    ((hmem v).mp hv).2.symm.trans ((hmem u).mp hu).2
  have hvn : v ∈ g.nodes := ((hmem v).mp hv).1
  have hin : ∀ u ∈ g.nodes, g.Connected v u → u ∈ c := fun u hu h =>
    (hmem u).mpr ⟨hu, ((hmem v).mp hv).2.trans h⟩
  match c, hcn with
  | [a], _ =>
    obtain rfl : v = a := by simpa using hv
    simp only [isCyclic, List.contains_iff_mem]
    constructor
    · exact fun h => TransGen.single ⟨h, hvn⟩
    · intro h
      obtain ⟨u, hu, hn, hvu⟩ := exists_step_of_cycle h
      obtain rfl : u = v := by simpa using hin u hn hvu
      exact hu
  | a :: b :: rest, hcn =>
    simp only [isCyclic, true_iff]
    have hab : a ≠ b := by
      intro hab
      rw [hab] at hcn
      exact (List.nodup_cons.mp hcn).1 (List.mem_cons_self ..)
    -- one of the first two members is not `v`, and it is connected with `v`
    obtain ⟨u, hu, hne⟩ : ∃ u ∈ a :: b :: rest, v ≠ u := by
      by_cases hva : v = a
      · exact ⟨b, by simp, fun h => hab (hva ▸ h)⟩
      · exact ⟨a, by simp, hva⟩
    rcases hconn u hu with h | ⟨h, h'⟩
    · exact absurd h hne
    · exact h.trans h'

/-- **What is in a cyclic component** are the nodes that reach themselves. -/
theorem mem_flatten_filter_isCyclic_iff (hnd : g.nodes.Nodup) {v : α} (hv : v ∈ g.nodes) :
    v ∈ (g.components.filter g.isCyclic).flatten ↔ TransGen g.Step v v := by
  rw [List.mem_flatten]
  constructor
  · rintro ⟨c, hc, hvc⟩
    obtain ⟨hc, hcyc⟩ := List.mem_filter.mp hc
    exact (isCyclic_iff hnd hc hvc).mp hcyc
  · intro h
    obtain ⟨c, hc, hvc⟩ := exists_mem_components hv
    exact ⟨c, List.mem_filter.mpr ⟨hc, (isCyclic_iff hnd hc hvc).mpr h⟩, hvc⟩

/-- **A step lies in a cyclic component** exactly when a chain leads back. -/
theorem exists_isCyclic_of_step_iff (hnd : g.nodes.Nodup) {u v : α} (hu : u ∈ g.nodes)
    (huv : g.Step u v) :
    (∃ c ∈ g.components.filter g.isCyclic, u ∈ c ∧ v ∈ c) ↔ ReflTransGen g.Step v u := by
  constructor
  · rintro ⟨c, hc, huc, hvc⟩
    obtain ⟨r, -, -, hmem⟩ := exists_of_mem_components (List.mem_filter.mp hc).1
    rcases (((hmem v).mp hvc).2.symm.trans ((hmem u).mp huc).2) with rfl | ⟨hback, -⟩
    · exact .refl
    · exact hback.to_reflTransGen
  · intro hback
    obtain ⟨c, hc, huc⟩ := exists_mem_components hu
    have hcyc : g.isCyclic c = true := (isCyclic_iff hnd hc huc).mpr (.head' huv hback)
    refine ⟨c, List.mem_filter.mpr ⟨hc, hcyc⟩, huc, ?_⟩
    obtain ⟨r, -, -, hmem⟩ := exists_of_mem_components hc
    have hconn : g.Connected u v := by
      rcases reflTransGen_iff_eq_or_transGen.mp hback with rfl | hback
      · exact Or.inl rfl
      · exact Or.inr ⟨.single huv, hback⟩
    exact (hmem v).mpr ⟨huv.2, ((hmem u).mp huc).2.trans hconn⟩

/-- **A cyclic component exists exactly when some node reaches itself.** -/
theorem exists_isCyclic_iff (hnd : g.nodes.Nodup) :
    (∃ c ∈ g.components, g.isCyclic c = true) ↔ ∃ v ∈ g.nodes, TransGen g.Step v v := by
  constructor
  · rintro ⟨c, hc, hcyc⟩
    obtain ⟨v, hv, -, hmem⟩ := exists_of_mem_components hc
    exact ⟨v, hv, (isCyclic_iff hnd hc ((hmem v).mpr ⟨hv, Or.inl rfl⟩)).mp hcyc⟩
  · rintro ⟨v, hv, h⟩
    obtain ⟨c, hc, hvc⟩ := exists_mem_components hv
    exact ⟨c, hc, (isCyclic_iff hnd hc hvc).mpr h⟩

/-- No component is cyclic exactly when no node reaches itself. -/
theorem filter_isCyclic_eq_nil_iff (hnd : g.nodes.Nodup) :
    g.components.filter g.isCyclic = [] ↔ ∀ v ∈ g.nodes, ¬ TransGen g.Step v v := by
  rw [List.filter_eq_nil_iff]
  have h := not_congr (exists_isCyclic_iff hnd)
  push Not at h
  simpa using h

/-! ## Long walks -/

/-- Whether a walk of `n` steps starts at a node. -/
def hasWalk (g : Digraph α) : Nat → α → Bool
  | 0, _ => true
  | n + 1, v => (g.edges v).any fun u => g.nodes.contains u && g.hasWalk n u

theorem hasWalk_succ_iff {n : Nat} {v : α} :
    g.hasWalk (n + 1) v = true ↔ ∃ u, g.Step v u ∧ g.hasWalk n u = true := by
  simp [hasWalk, Step, and_assoc]

/-- A node that reaches itself starts walks of any length. -/
theorem hasWalk_of_transGen {v : α} (h : TransGen g.Step v v) (n : Nat) : g.hasWalk n v = true := by
  induction n generalizing v with
  | zero => rfl
  | succ n ih =>
    obtain ⟨u, hvu, huv⟩ := TransGen.head'_iff.mp h
    exact hasWalk_succ_iff.mpr ⟨u, hvu, ih (TransGen.tail' huv hvu)⟩

/-- A walk, as the list of the nodes it passes. -/
theorem exists_chain_of_hasWalk {n : Nat} {v : α} (h : g.hasWalk n v = true) :
    ∃ l : List α, l.length = n ∧ (v :: l).IsChain g.Step := by
  induction n generalizing v with
  | zero => exact ⟨[], rfl, .singleton v⟩
  | succ n ih =>
    obtain ⟨u, hvu, hu⟩ := hasWalk_succ_iff.mp h
    obtain ⟨l, hlen, hl⟩ := ih hu
    exact ⟨u :: l, by simp [hlen], .cons_cons hvu hl⟩

omit [DecidableEq α] in
/-- What stands later in a chain is reached from what stands before. -/
theorem pairwise_of_isChain {l : List α} (h : l.IsChain g.Step) : l.Pairwise (TransGen g.Step) :=
  List.isChain_iff_pairwise.mp (h.imp fun _ _ => TransGen.single)

/-- **A walk of as many steps as there are nodes passes a node twice.** -/
theorem exists_cycle_of_hasWalk {v : α} (hv : v ∈ g.nodes)
    (h : g.hasWalk g.nodes.length v = true) : ∃ u ∈ g.nodes, TransGen g.Step u u := by
  obtain ⟨l, hlen, hl⟩ := exists_chain_of_hasWalk h
  have hp := pairwise_of_isChain hl
  have hsub : v :: l ⊆ g.nodes := by
    intro u hu
    rcases List.mem_cons.mp hu with rfl | hu
    · exact hv
    · exact mem_nodes_of_transGen (List.rel_of_pairwise_cons hp hu)
  have hdup : ¬ (v :: l).Nodup := by
    intro hnd
    have hle := (List.subperm_of_subset hnd hsub).length_le
    rw [List.length_cons, hlen] at hle
    omega
  obtain ⟨u, hu⟩ := List.exists_duplicate_iff_not_nodup.mpr hdup
  have htwice : [u, u].Pairwise (TransGen g.Step) := hp.sublist (List.duplicate_iff_sublist.mp hu)
  exact ⟨u, hsub hu.mem, List.rel_of_pairwise_cons htwice (List.mem_singleton_self u)⟩

/-- **No node reaches itself** exactly when no walk takes as many steps as
there are nodes. -/
theorem acyclic_iff_hasWalk : (∀ v ∈ g.nodes, ¬ TransGen g.Step v v) ↔
    ∀ v ∈ g.nodes, g.hasWalk g.nodes.length v = false := by
  constructor
  · intro hac v hv
    rw [← Bool.not_eq_true]
    intro h
    obtain ⟨u, hu, hcycle⟩ := exists_cycle_of_hasWalk hv h
    exact hac u hu hcycle
  · intro hshort v hv h
    have hlong := hasWalk_of_transGen h g.nodes.length
    rw [hshort v hv] at hlong
    cases hlong

end Digraph

end WireModel
