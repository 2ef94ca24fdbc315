import WireModel.Link.Order
import WireModel.Proofs.Graph.Placing
import WireModel.Proofs.Link.Bindings
import WireModel.Proofs.Link.Circle

/-!
# The order of modules — imports first, then the least path

Modules are placed by a loop that does not ask whether there is anything
left to place, and would go on for ever on a circle of imports. Linking
rejects circles before it gets there, and knows every imported module,
so the loop ends (`resolve_modules_ordered`).

At every position of the order stands the module with the least path of
those that could stand there. The loop finds it as the first of the
modules sorted by their paths, and `getElem?_schedule` says what the
first one is at each of its passes.
-/

namespace WireModel

open Linking

section Ordered

/-- A module can be placed after some others: all that it depends on are
among them. -/
def LinkedModule.CanFollow (placed : List LinkedModule) (lm : LinkedModule) : Prop :=
  ∀ j ∈ lm.deps, j ∈ placed.map (·.id)

variable (w : Workspace) (ids : List Nat) (g : ModuleGraph)

/-- **The modules of a graph are in order.** -/
structure ModulesOrdered : Prop where
  /-- The loop that places them ends with them, and with no other order. -/
  placed : ∀ o, DependencyOrder g.workspace (order w ids) o ↔ o = g.modules.map (·.id)
  /-- They are the given modules, each of them once. -/
  nodup : (g.modules.map (·.id)).Nodup
  given : ∀ i, i ∈ g.modules.map (·.id) ↔ ∃ m, Given w ids i m
  /-- A module depends on the modules it imports, each of them once, by their
  paths. -/
  deps_nodup : ∀ lm ∈ g.modules, lm.deps.Nodup
  mem_deps : ∀ lm ∈ g.modules, ∀ j, j ∈ lm.deps ↔ ImportsModule w ids lm.id j
  deps_sorted : ∀ lm ∈ g.modules, lm.deps.Pairwise (PathLe w ids)
  /-- It comes after all modules it imports. -/
  imports_first : ∀ i j, ImportsModule w ids i j → [j, i].Sublist (g.modules.map (·.id))
  /-- And no module that could stand in its place has a smaller path. -/
  least : ∀ k lm, g.modules[k]? = some lm → lm.CanFollow (g.modules.take k) ∧
    ∀ lm' ∈ g.modules, lm' ∉ g.modules.take k → lm'.CanFollow (g.modules.take k) →
      PathLe w ids lm.id lm'.id

end Ordered

variable {w : Workspace} {ids : List Nat}

/-! ## What a module depends on -/

section Passed

variable (hp : Passes w ids)

/-- The dependencies of a module of the graph. -/
theorem deps_of_mem_modules {lm : LinkedModule} (hlm : lm ∈ (graph w ids).modules) :
    lm.deps = dependencies (linked w ids) lm.id := by
  conv_lhs => rw [(mem_modules_graph_iff.mp hlm).2]
  rfl

include hp in
theorem mem_order_of_mem_modules {lm : LinkedModule} (hlm : lm ∈ (graph w ids).modules) :
    lm.id ∈ order w ids :=
  (schedule_perm_order hp).mem_iff.mp (mem_modules_graph_iff.mp hlm).1

theorem nodup_eraseDups (ids : List Nat) : ids.eraseDups.Nodup := by
  cases ids with
  | nil => simp
  | cons i ids =>
    rw [List.eraseDups_cons, List.nodup_cons]
    exact ⟨by simp [List.mem_eraseDups], nodup_eraseDups _⟩
termination_by ids.length
decreasing_by
  have hle := List.length_filter_le (fun j => !j == i) ids
  rw [List.length_cons]
  omega

theorem nodup_dependencies (u : Workspace) (i : Nat) : (dependencies u i).Nodup :=
  (List.mergeSort_perm _ _).nodup_iff.mpr (nodup_eraseDups _)

/-- **Dependencies are sorted by their paths.** -/
theorem pairwise_dependencies (hp : Passes w ids) (i : Nat) :
    (dependencies (linked w ids) i).Pairwise (PathLe w ids) := by
  have hsorted : (dependencies (linked w ids) i).Pairwise fun a b =>
      Text.le (((linked w ids)[a]?.map (·.path)).getD [])
        (((linked w ids)[b]?.map (·.path)).getD []) = true := by
    refine List.pairwise_mergeSort ?_ ?_ _
    · intro a b c hab hbc
      exact Text.le_trans hab hbc
    · intro a b
      exact Text.le_total _ _
  refine hsorted.imp fun {a b} hle m n hm hn => ?_
  rw [getElem?_linked hp.registered hp.references hm,
    getElem?_linked hp.registered hp.references hn] at hle
  exact hle

/-! ## What is placed next -/

include hp in
/-- **The module with the least path is placed** of those that can follow the
ones before it. -/
theorem least_of_getElem? {k : Nat} {lm : LinkedModule} (hk : (graph w ids).modules[k]? = some lm) :
    lm.CanFollow ((graph w ids).modules.take k) ∧
      ∀ lm' ∈ (graph w ids).modules, lm' ∉ (graph w ids).modules.take k →
        lm'.CanFollow ((graph w ids).modules.take k) → PathLe w ids lm.id lm'.id := by
  have hlm := List.mem_of_getElem? hk
  have hplaced : (schedule (dependencies (linked w ids)) [] (order w ids)).take k =
      ((graph w ids).modules.take k).map (·.id) := by
    rw [List.map_take, map_id_modules]
  have hat : (schedule (dependencies (linked w ids)) [] (order w ids))[k]? = some lm.id := by
    rw [← map_id_modules, List.getElem?_map, hk]
    rfl
  obtain ⟨hneeds, hfirst⟩ := getElem?_schedule hat
  rw [hplaced] at hneeds hfirst
  refine ⟨fun j hj => ?_, fun lm' hlm' hnew hcan => ?_⟩
  · rw [deps_of_mem_modules hlm] at hj
    exact (hneeds j hj).resolve_left List.not_mem_nil
  · have hnew' : lm'.id ∉ ((graph w ids).modules.take k).map (·.id) := by
      intro hmem
      obtain ⟨lm'', hmem', hid⟩ := List.mem_map.mp hmem
      have heq := (mem_modules_graph_iff.mp (List.mem_of_mem_take hmem')).2
      rw [hid, ← (mem_modules_graph_iff.mp hlm').2] at heq
      exact hnew (heq ▸ hmem')
    have hready : ∀ j ∈ dependencies (linked w ids) lm'.id,
        j ∈ [] ∨ j ∈ ((graph w ids).modules.take k).map (·.id) := by
      intro j hj
      rw [← deps_of_mem_modules hlm'] at hj
      exact Or.inr (hcan j hj)
    rcases hfirst lm'.id (mem_order_of_mem_modules hp hlm') hnew' hready with heq | hsub
    · rw [heq]
      intro m n hm hn
      obtain rfl : m = n := Option.some.inj (hm.2.symm.trans hn.2)
      simpa using Text.le_total m.path m.path
    · exact (List.pairwise_pair.mp ((pairwise_order hp.registered).sublist hsub))

end Passed

/-- **Modules are placed in order.** The loop that places the modules of a graph
ends, each of them stands after those it imports, and at every position stands
the one with the least path of those that could stand there. -/
theorem resolve_modules_ordered {g : ModuleGraph} (h : (resolve w ids).2 = .ok g) :
    ModulesOrdered w ids g := by
  obtain ⟨hp, rfl⟩ := passes_of_resolve h
  have hperm := schedule_perm_order hp
  have hmem : ∀ lm ∈ (graph w ids).modules, ∀ j, j ∈ lm.deps ↔ ImportsModule w ids lm.id j := by
    intro lm hlm j
    rw [deps_of_mem_modules hlm, mem_dependencies_iff hp (mem_order_of_mem_modules hp hlm)]
  refine ⟨fun o => ?_, nodup_ids_modules hp, fun i => ?_, fun lm hlm => ?_, hmem, fun lm hlm => ?_,
    fun i j himp => ?_, fun k lm hk => least_of_getElem? hp hk⟩
  · have hloop : DependencyOrder (linked w ids) (order w ids) ((graph w ids).modules.map (·.id)) := by
      rw [map_id_modules]
      exact placesAll_schedule (nodup_order hp.registered) hperm.length_eq
    exact ⟨fun ho => PlacesAll.unique ho hloop, fun heq => heq ▸ hloop⟩
  · rw [← exists_mem_modules_iff hp, List.mem_map]
  · rw [deps_of_mem_modules hlm]
    exact nodup_dependencies _ _
  · rw [deps_of_mem_modules hlm]
    exact pairwise_dependencies hp _
  · rw [map_id_modules]
    have hi := (mem_order_of_imports hp.registered himp).1
    exact sublist_schedule (hperm.mem_iff.mpr hi) ((mem_dependencies_iff hp hi).mpr himp)
      List.not_mem_nil

namespace Sample

/-- Three modules, of which the one with the least path imports the one with the
greatest. -/
def fork : Workspace := [importing "a" ["c"], importing "b" [], importing "c" []]

theorem resolve_fork : (resolve fork [2, 0, 1]).2 = .ok (graph fork [2, 0, 1]) :=
  resolve_eq_graph (by decide +kernel)

/-- **The one between them comes first**, and then what is imported. -/
theorem fork_ordered : (resolve fork [2, 0, 1]).2 = .ok (graph fork [2, 0, 1]) ∧
    (graph fork [2, 0, 1]).modules.map (·.id) = [1, 2, 0] ∧
    ModulesOrdered fork [2, 0, 1] (graph fork [2, 0, 1]) := by
  refine ⟨resolve_fork, ?_, resolve_modules_ordered resolve_fork⟩
  have hlinked : linked fork [2, 0, 1] = [{ importing "a" ["c"] with
      imports := [{ ns := "c", path := "c", bound := some 2 }] }, importing "b" [],
      importing "c" []] := by
    rw [linked_eq_bound]
    rfl
  have horder : order fork [2, 0, 1] = [0, 1, 2] := by
    rw [order_eq_inserted]
    rfl
  rw [map_id_modules, hlinked, horder]
  decide +kernel

end Sample

end WireModel
