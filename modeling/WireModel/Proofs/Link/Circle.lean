import Mathlib.Data.Finset.Basic
import Mathlib.Data.List.Forall2
import WireModel.Proofs.Graph.Cycle
import WireModel.Proofs.Link.Accept

/-!
# Import circles — what is reported of them

A circle of imports is a set of modules that reach each other over
their imports, with all modules they so reach and come back from. The
check reports each of them once, and nothing else, and names a way
around it that a reader can follow import by import
(`cycleErrors_report`).

The sets are the cyclic components of the import graph, and the way
around is the circle that the search of `WireModel.Proofs.Graph.Cycle`
closes. What is added here is which module it starts with: the modules
are ranked by their paths, and a component keeps that order.
-/

namespace WireModel

open Relation Linking

section Reported

variable (w : Workspace) (ids : List Nat)

/-- **A circle of imports**: a module that reaches itself over its
imports, with all modules it reaches and is reached from. -/
def ImportCircle (s : Finset Nat) : Prop :=
  s.Nonempty ∧ ∀ a ∈ s, ∀ b, b ∈ s ↔
    TransGen (ImportsModule w ids) a b ∧ TransGen (ImportsModule w ids) b a

/-- The path of a module is not after that of another one. -/
def PathLe (a b : Nat) : Prop :=
  ∀ m n, Given w ids a m → Given w ids b n → Text.le m.path n.path = true

/-- **An error that reports a circle of imports**: it names the modules on
a way around, import by import, from the module with the least path back
to it and past no other module twice. -/
def ReportsCircle (s : Finset Nat) (e : CompileError) : Prop :=
  ∃ start mid, start ∈ s ∧ (∀ b ∈ s, PathLe w ids start b) ∧ (∀ b ∈ mid, b ∈ s) ∧
    (start :: mid).Nodup ∧ (start :: (mid ++ [start])).IsChain (ImportsModule w ids) ∧
    e = { kind := some .importCycle
          module := w.nameOf start
          detail := Text.join " -> " ((start :: (mid ++ [start])).map w.nameOf) }

end Reported

variable {w : Workspace} {ids : List Nat}

/-! ## The order of modules -/

/-- **Modules are ranked by their paths.** -/
theorem pairwise_order (hreg : (register w [] ids).2 = []) :
    (order w ids).Pairwise (PathLe w ids) := by
  have hpath : ∀ e ∈ Text.sortByKey (paths w ids), ∃ m, Given w ids e.2 m ∧ m.path = e.1 := by
    intro e he
    have hmem : e ∈ paths w ids := (Text.sortByKey_perm _).mem_iff.mp he
    exact (lookup?_paths_eq_some_iff hreg).mp (Text.lookup?_eq_some_of_mem nodup_paths hmem)
  rw [order, List.pairwise_map]
  refine List.Pairwise.imp_of_mem ?_ (Text.pairwise_sortByKey (paths w ids))
  intro d e hd he hle m n hm hn
  obtain ⟨m', hm', hdp⟩ := hpath d hd
  obtain ⟨n', hn', hep⟩ := hpath e he
  obtain rfl : m' = m := Option.some.inj (hm'.2.symm.trans hm.2)
  obtain rfl : n' = n := Option.some.inj (hn'.2.symm.trans hn.2)
  rw [hdp, hep]
  exact hle

/-- A module's name does not change when its imports are bound. -/
theorem nameOf_withImports (hreg : (register w [] ids).2 = []) {i : Nat}
    (hi : i ∈ order w ids) : (withImports w ids).nameOf i = w.nameOf i := by
  obtain ⟨m, hm⟩ := (mem_order_iff hreg).mp hi
  rw [Workspace.nameOf, Workspace.nameOf, getElem?_withImports hreg hm, hm.2]
  rfl

/-! ## Components of the import graph -/

section Components

variable (hreg : (register w [] ids).2 = [])
variable (himp : (bindAllImports w (paths w ids) (order w ids)).2 = [])

include hreg himp in
/-- Two modules of the import graph are connected if they are the same or
reach each other over their imports. -/
theorem connected_importGraph_iff {a b : Nat} (ha : a ∈ order w ids) (hb : b ∈ order w ids) :
    (importGraph (withImports w ids) (order w ids)).Connected a b ↔
      a = b ∨ (TransGen (ImportsModule w ids) a b ∧ TransGen (ImportsModule w ids) b a) := by
  rw [Digraph.Connected, transGen_importGraph_iff hreg himp ha,
    transGen_importGraph_iff hreg himp hb]

include hreg himp in
/-- **A cyclic component is a circle of imports.** -/
theorem importCircle_of_component {c : List Nat}
    (hc : c ∈ (importGraph (withImports w ids) (order w ids)).components)
    (hcyc : (importGraph (withImports w ids) (order w ids)).isCyclic c = true) :
    ImportCircle w ids c.toFinset := by
  obtain ⟨r, hr, -, hmem⟩ := Digraph.exists_of_mem_components hc
  refine ⟨⟨r, List.mem_toFinset.mpr ((hmem r).mpr ⟨hr, Or.inl rfl⟩)⟩, ?_⟩
  intro a ha b
  rw [List.mem_toFinset] at ha ⊢
  obtain ⟨haord, hra⟩ := (hmem a).mp ha
  have hself : TransGen (ImportsModule w ids) a a :=
    (transGen_importGraph_iff hreg himp haord).mp
      ((Digraph.isCyclic_iff (nodup_order hreg) hc ha).mp hcyc)
  constructor
  · intro hb
    obtain ⟨hbord, hrb⟩ := (hmem b).mp hb
    rcases (connected_importGraph_iff hreg himp haord hbord).mp (hra.symm.trans hrb) with rfl | h
    · exact ⟨hself, hself⟩
    · exact h
  · intro hab
    have hbord : b ∈ order w ids := (mem_order_of_transGen hreg hab.1).2
    have hconn := (connected_importGraph_iff hreg himp haord hbord).mpr (Or.inr hab)
    exact (hmem b).mpr ⟨hbord, hra.trans hconn⟩

include hreg himp in
/-- **And every circle of imports is one.** -/
theorem exists_component_of_importCircle {s : Finset Nat} (hs : ImportCircle w ids s) :
    ∃ c ∈ (importGraph (withImports w ids) (order w ids)).components,
      (importGraph (withImports w ids) (order w ids)).isCyclic c = true ∧ c.toFinset = s := by
  obtain ⟨⟨a, ha⟩, hall⟩ := hs
  have hself : TransGen (ImportsModule w ids) a a := ((hall a ha a).mp ha).1
  have haord : a ∈ order w ids := (mem_order_of_transGen hreg hself).1
  obtain ⟨c, hc, hac⟩ := Digraph.exists_mem_components
    (g := importGraph (withImports w ids) (order w ids)) haord
  have hcyc : (importGraph (withImports w ids) (order w ids)).isCyclic c = true :=
    (Digraph.isCyclic_iff (nodup_order hreg) hc hac).mpr
      ((transGen_importGraph_iff hreg himp haord).mpr hself)
  -- both sets are what `a` reaches and comes back from
  obtain ⟨-, hcall⟩ := importCircle_of_component hreg himp hc hcyc
  refine ⟨c, hc, hcyc, Finset.ext fun b => ?_⟩
  rw [hcall a (List.mem_toFinset.mpr hac) b, hall a ha b]

include hreg in
/-- The first member of a component has the least path of all. -/
theorem pathLe_head_of_component {start : Nat} {rest : List Nat}
    (hc : start :: rest ∈ (importGraph (withImports w ids) (order w ids)).components) :
    ∀ b ∈ start :: rest, PathLe w ids start b := by
  obtain ⟨r, -, heq, -⟩ := Digraph.exists_of_mem_components hc
  have hsorted : (start :: rest).Pairwise (PathLe w ids) := by
    rw [heq]
    exact (pairwise_order hreg).filter _
  intro b hb
  rcases List.mem_cons.mp hb with rfl | hb
  · intro m n hm hn
    obtain rfl : m = n := Option.some.inj (hm.2.symm.trans hn.2)
    simpa using Text.le_total m.path m.path
  · exact (List.pairwise_cons.mp hsorted).1 b hb

include hreg himp in
/-- **The error for a cyclic component reports its circle.** -/
theorem reportsCircle_of_component {c : List Nat}
    (hc : c ∈ (importGraph (withImports w ids) (order w ids)).components)
    (hcyc : (importGraph (withImports w ids) (order w ids)).isCyclic c = true) :
    ReportsCircle w ids c.toFinset
      { kind := some .importCycle
        module := ((c.head?).map (withImports w ids).nameOf).getD []
        detail := Text.join " -> "
          (((importGraph (withImports w ids) (order w ids)).cyclePath c).map
            (withImports w ids).nameOf) } := by
  cases c with
  | nil => cases hcyc
  | cons start rest =>
    obtain ⟨r, -, -, hmem⟩ := Digraph.exists_of_mem_components hc
    have hord : ∀ b ∈ start :: rest, b ∈ order w ids := fun b hb => ((hmem b).mp hb).1
    obtain ⟨mid, hpath, hnd, hin, hchain⟩ :=
      Digraph.cyclePath_isCircle (nodup_order hreg) hc hcyc
    have hway : ∀ b ∈ start :: (mid ++ [start]), b ∈ order w ids := by
      intro b hb
      simp only [List.mem_cons, List.mem_append, List.not_mem_nil, or_false] at hb
      rcases hb with rfl | hb | rfl
      · exact hord _ List.mem_cons_self
      · exact hord b (hin hb)
      · exact hord _ List.mem_cons_self
    refine ⟨start, mid, by simp, ?_, ?_, hnd, ?_, ?_⟩
    · intro b hb
      exact pathLe_head_of_component hreg hc b (List.mem_toFinset.mp hb)
    · exact fun b hb => List.mem_toFinset.mpr (hin hb)
    · rw [hpath] at hchain
      refine hchain.imp_of_mem_imp fun a b ha _ hedge => ?_
      exact (mem_importGraph_edges_iff hreg himp (hway a ha)).mp hedge
    · rw [hpath, List.map_congr_left fun b hb => nameOf_withImports hreg (hway b hb)]
      simp [nameOf_withImports hreg (hord start List.mem_cons_self)]

end Components

/-! ## The reports -/

/-- **Import circles are reported exactly.** When modules can be
registered and their imports bound, there is one error for each circle of
imports and no other, each error shows a way around its circle, and if
there is one, linking ends with just these errors. -/
theorem cycleErrors_report (hreg : (register w [] ids).2 = [])
    (himp : (bindAllImports w (paths w ids) (order w ids)).2 = []) :
    (∃ circles : List (Finset Nat), circles.Nodup ∧ (∀ s, s ∈ circles ↔ ImportCircle w ids s) ∧
      List.Forall₂ (ReportsCircle w ids) circles
        (cycleErrors (withImports w ids) (order w ids))) ∧
      (cycleErrors (withImports w ids) (order w ids) ≠ [] →
        (resolve w ids).2 =
          .error (.errors (cycleErrors (withImports w ids) (order w ids)))) := by
  set g := importGraph (withImports w ids) (order w ids) with hg
  have hcyc : ∀ c ∈ g.components.filter g.isCyclic, c ∈ g.components ∧ g.isCyclic c = true :=
    fun c hc => List.mem_filter.mp hc
  refine ⟨⟨(g.components.filter g.isCyclic).map List.toFinset, ?_, ?_, ?_⟩, ?_⟩
  · -- components have no module in common, so none is listed twice
    rw [List.Nodup, List.pairwise_map]
    refine List.Pairwise.imp_of_mem ?_ (Digraph.components_disjoint.filter _)
    intro c d hc hd hdisj heq
    obtain ⟨⟨a, ha⟩, -⟩ := importCircle_of_component hreg himp (hcyc c hc).1 (hcyc c hc).2
    have had : a ∈ d.toFinset := by
      rw [← heq]
      exact ha
    exact hdisj (List.mem_toFinset.mp ha) (List.mem_toFinset.mp had)
  · intro s
    rw [List.mem_map]
    constructor
    · rintro ⟨c, hc, rfl⟩
      exact importCircle_of_component hreg himp (hcyc c hc).1 (hcyc c hc).2
    · intro hs
      obtain ⟨c, hc, hccyc, rfl⟩ := exists_component_of_importCircle hreg himp hs
      exact ⟨c, List.mem_filter.mpr ⟨hc, hccyc⟩, rfl⟩
  · rw [cycleErrors, List.forall₂_map_left_iff, List.forall₂_map_right_iff, List.forall₂_same]
    intro c hc
    exact reportsCircle_of_component hreg himp (hcyc c hc).1 (hcyc c hc).2
  · exact resolve_of_circles hreg himp

namespace Sample

/-- A module that does nothing but import others. -/
def importing (name : Text) (others : List Text) : Module :=
  { name, path := name, imports := others.map fun p => { ns := p, path := p } }

/-- Three modules that import each other in a ring, one of them another
module too, and a module that imports itself. -/
def ring : Workspace :=
  [importing "c" ["a", "leaf"], importing "a" ["b"], importing "b" ["c"],
    importing "own" ["own"], importing "leaf" []]

/-- The ring and the module that imports itself are what is reported. -/
theorem ring_reports :
    (∃ circles : List (Finset Nat), circles.Nodup ∧
      (∀ s, s ∈ circles ↔ ImportCircle ring [0, 1, 2, 3, 4] s) ∧
      List.Forall₂ (ReportsCircle ring [0, 1, 2, 3, 4]) circles
        [{ kind := some .importCycle, module := "a", detail := "a -> b -> c -> a" },
          { kind := some .importCycle, module := "own", detail := "own -> own" }]) ∧
      (resolve ring [0, 1, 2, 3, 4]).2 = .error (.errors
        [{ kind := some .importCycle, module := "a", detail := "a -> b -> c -> a" },
          { kind := some .importCycle, module := "own", detail := "own -> own" }]) := by
  have herrors : cycleErrors (withImports ring [0, 1, 2, 3, 4]) (order ring [0, 1, 2, 3, 4]) =
      [{ kind := some .importCycle, module := "a", detail := "a -> b -> c -> a" },
        { kind := some .importCycle, module := "own", detail := "own -> own" }] := by
    cbv
  have hreg : (register ring [] [0, 1, 2, 3, 4]).2 = [] := by decide +kernel
  have himp : (bindAllImports ring (paths ring [0, 1, 2, 3, 4]) (order ring [0, 1, 2, 3, 4])).2 =
      [] := by
    rw [order_eq_inserted]
    decide +kernel
  have h := cycleErrors_report hreg himp
  rw [herrors] at h
  exact ⟨h.1, h.2 (List.cons_ne_nil _ _)⟩

end Sample

end WireModel
