import WireModel.Link.Order
import WireModel.Proofs.Graph.Congruence
import WireModel.Proofs.Graph.Placing
import WireModel.Proofs.Graph.Tarjan
import WireModel.Proofs.Link.Bindings
import WireModel.Proofs.Link.Emission
import WireModel.Proofs.Link.Recursion

/-!
# The emission order — what is referred to first, then what is declared first

The declarations of a module are emitted group by group, where a group
holds the declarations that refer to each other. The loop that orders
the groups makes one pass for each, and takes of all groups that can
follow the ones placed so far the one that is declared first. It needs
one in every pass, and there is one, because groups do not wait for each
other in circles (`Workspace.needs_acyclic`); so it never breaks off
(`resolve_emitted_in_order`).

What a group needs is a list of groups, found by looking for the group
of every reference. `Workspace.canFollow_iff` says it with references
alone.
-/

namespace WireModel

open Relation Linking

/-! ## What is asked -/

namespace ModuleGraph

/-- A declaration of a module refers to one of the same module. -/
def RefersInside (g : ModuleGraph) (i : Nat) (a b : DeclId) : Prop :=
  g.RefersTo a b ∧ a ∈ g.workspace.declIds i ∧ b ∈ g.workspace.declIds i

/-- A group of declarations of a module can follow some others: whatever its
members refer to in the module is in the group, or in one of the others. -/
def CanFollow (g : ModuleGraph) (i : Nat) (placed : List (List DeclId)) (c : List DeclId) : Prop :=
  ∀ a ∈ c, ∀ b, g.RefersInside i a b → b ∈ c ∨ ∃ c' ∈ placed, b ∈ c'

end ModuleGraph

/-- **The declarations of a linked module are in order**, by these groups of
them. -/
structure EmittedInOrder (g : ModuleGraph) (lm : LinkedModule) (groups : List (List DeclId)) :
    Prop where
  /-- The loop that orders the groups finds one in every pass. -/
  ordered : emissionOrder? g.workspace lm.id = some lm.order
  /-- Every declaration is emitted once. -/
  perm : lm.order.Perm (g.workspace.declIds lm.id)
  /-- The groups are the components of the module, one after the other. -/
  components : groups.Perm lm.components
  flatten : lm.order = groups.flatten
  /-- Their members are in the order of the declarations. -/
  members : ∀ c ∈ groups, c ≠ [] ∧ c.Sublist (g.workspace.declIds lm.id)
  /-- Declarations have the same number where they are in one group. -/
  together : ∀ a ∈ g.workspace.declIds lm.id, ∀ b ∈ g.workspace.declIds lm.id,
    (lm.component? a = lm.component? b ↔ ∃ c ∈ groups, a ∈ c ∧ b ∈ c)
  /-- And that is where they lead to each other. -/
  connected : ∀ a ∈ g.workspace.declIds lm.id, ∀ b ∈ g.workspace.declIds lm.id,
    (lm.component? a = lm.component? b ↔
      ReflTransGen (g.RefersInside lm.id) a b ∧ ReflTransGen (g.RefersInside lm.id) b a)
  /-- What is referred to comes first, except in a group. -/
  references_first : ∀ a b, g.RefersInside lm.id a b →
    lm.component? a = lm.component? b ∨ [b, a].Sublist lm.order
  /-- There always is a group that can be next. -/
  progress : ∀ k < groups.length,
    ∃ c ∈ lm.components, c ∉ groups.take k ∧ g.CanFollow lm.id (groups.take k) c
  /-- And of those that can be next the one that is declared first is. -/
  first : ∀ k c, groups[k]? = some c → g.CanFollow lm.id (groups.take k) c ∧
    ∀ c' ∈ groups, c' ∉ groups.take k → g.CanFollow lm.id (groups.take k) c' →
      declaredAt c ≤ declaredAt c'

/-! ## Groups of a module -/

namespace Workspace

/-- The groups of a module in the order in which they are emitted. -/
def groups (w : Workspace) (m : Nat) : List (List DeclId) :=
  orderComponents w m (w.refGraph m).components

variable {w : Workspace} {m : Nat} {c : List DeclId}

/-- A reference leads into the group, or into one that the group needs. -/
theorem exists_mem_groupNeeds {a b : DeclId} (ha : a ∈ c)
    (hab : (w.refGraph m).Step a b) : b ∈ c ∨ ∃ c' ∈ w.groupNeeds m c, b ∈ c' := by
  obtain ⟨c', hc', hb⟩ := Digraph.exists_mem_components hab.2
  by_cases heq : c' = c
  · exact Or.inl (heq ▸ hb)
  · refine Or.inr ⟨c', List.mem_filter.mpr ⟨List.mem_filterMap.mpr ⟨b, ?_, ?_⟩, by simpa using heq⟩,
      hb⟩
    · exact List.mem_flatMap.mpr ⟨a, ha, hab.1⟩
    · cases hfind : (w.refGraph m).components.find? (·.contains b) with
      | none => exact absurd (by simpa using hb) (List.find?_eq_none.mp hfind c' hc')
      | some c'' =>
        have hb'' : b ∈ c'' := by simpa using List.find?_some hfind
        rw [Digraph.eq_of_connected (List.mem_of_find?_eq_some hfind) hc' hb'' hb (Or.inl rfl)]

/-- **The needs of a group are met** when its references lead into it, or to
what is placed. -/
theorem canFollow_iff (hc : c ∈ (w.refGraph m).components) {placed : List (List DeclId)}
    (hplaced : placed ⊆ (w.refGraph m).components) :
    (∀ c' ∈ w.groupNeeds m c, c' ∈ placed) ↔
      ∀ a ∈ c, ∀ b, (w.refGraph m).Step a b → b ∈ c ∨ ∃ c' ∈ placed, b ∈ c' := by
  constructor
  · intro h a ha b hab
    exact (exists_mem_groupNeeds ha hab).imp_right fun ⟨c', hc', hb⟩ => ⟨c', h c' hc', hb⟩
  · intro h c' hneed
    obtain ⟨hc', hne, a, ha, b, hb, hab⟩ := mem_groupNeeds hneed
    rcases h a ha b hab with hbc | ⟨c'', hc'', hbc⟩
    · exact absurd (Digraph.eq_of_connected hc' hc hb hbc (Or.inl rfl)) hne
    · rwa [Digraph.eq_of_connected hc' (hplaced hc'') hb hbc (Or.inl rfl)]

/-- The declarations of a module are listed by their places. -/
theorem pairwise_declIds : (w.declIds m).Pairwise fun a b => a.index < b.index := by
  rw [declIds]
  split
  · exact List.pairwise_map.mpr List.pairwise_lt_range
  · exact List.Pairwise.nil

/-- **Groups are ranked by the places** where they are declared. -/
theorem pairwise_ranked : (w.ranked m).Pairwise fun c c' => declaredAt c < declaredAt c' := by
  have hat : ∀ {d c}, (w.refGraph m).components.find? (·.head? == some d) = some c →
      declaredAt c = d.index := by
    intro d c hfind
    have hhead : c.head? = some d := by simpa using List.find?_some hfind
    rw [declaredAt, hhead]
    rfl
  refine List.pairwise_filterMap.mpr (pairwise_declIds.imp fun {a b} hlt c hc c' hc' => ?_)
  rw [hat hc, hat hc']
  exact hlt

theorem ranked_perm : (w.ranked m).Perm (w.refGraph m).components := by
  refine (List.perm_ext_iff_of_nodup nodup_ranked ?_).mpr fun c => mem_ranked_iff
  refine Digraph.components_disjoint.imp_of_mem fun {c c'} hc hc' hdis heq => ?_
  obtain ⟨r, hr, -, hmem⟩ := Digraph.exists_of_mem_components hc
  have hrc : r ∈ c := (hmem r).mpr ⟨hr, Or.inl rfl⟩
  exact hdis hrc (heq ▸ hrc)

/-- **The loop over the groups comes to its end**, with the order that linking
gives. -/
theorem emissionOrder?_eq (w : Workspace) (m : Nat) (deps : List Nat) :
    emissionOrder? w m = some (analyze w m deps).order := by
  have hplace : placeEach? declaredAt (w.groupNeeds m) (w.refGraph m).components =
      some (schedule (w.groupNeeds m) [] (w.ranked m)) :=
    placeEach?_eq ranked_perm nodup_ranked pairwise_ranked
      (orderComponents_eq w m ▸ orderComponents_perm.length_eq)
  have hgroups : (w.refGraph m).tarjan? = some (w.refGraph m).components :=
    (Digraph.tarjan?_eq nodup_declIds).1
  rw [emissionOrder?, hgroups]
  exact congrArg (Option.bind · fun order => some order.flatten) hplace

theorem groups_perm : (w.groups m).Perm (w.refGraph m).components :=
  orderComponents_perm.trans ranked_perm

theorem nodup_groups : (w.groups m).Nodup := orderComponents_perm.nodup_iff.mpr nodup_ranked

/-- **What is referred to comes first**, if it is not in the same group. -/
theorem sublist_flatten_groups {a b : DeclId} (ha : a ∈ w.declIds m)
    (hab : (w.refGraph m).Step a b) :
    (∃ c ∈ (w.refGraph m).components, a ∈ c ∧ b ∈ c) ∨ [b, a].Sublist (w.groups m).flatten := by
  obtain ⟨c, hc, hac⟩ := Digraph.exists_mem_components (g := w.refGraph m) ha
  refine (exists_mem_groupNeeds hac hab).imp (fun hbc => ⟨c, hc, hac, hbc⟩) ?_
  rintro ⟨c', hneed, hbc'⟩
  have hgroups : [c', c].Sublist (w.groups m) :=
    sublist_schedule (groups_perm.mem_iff.mpr hc) hneed List.not_mem_nil
  have hpair : ([b] ++ [a]).Sublist (c' ++ c) :=
    (List.singleton_sublist.mpr hbc').append (List.singleton_sublist.mpr hac)
  simpa using hpair.trans (by simpa using hgroups.flatten)

/-- **The group that is declared first is placed**, of those whose references
lead into them or to what is placed. -/
theorem first_of_getElem?_groups {k : Nat} (hk : (w.groups m)[k]? = some c) :
    (∀ a ∈ c, ∀ b, (w.refGraph m).Step a b → b ∈ c ∨ ∃ c' ∈ (w.groups m).take k, b ∈ c') ∧
      ∀ c' ∈ (w.refGraph m).components, c' ∉ (w.groups m).take k →
        (∀ a ∈ c', ∀ b, (w.refGraph m).Step a b →
          b ∈ c' ∨ ∃ c'' ∈ (w.groups m).take k, b ∈ c'') →
        declaredAt c ≤ declaredAt c' := by
  have hplaced : (w.groups m).take k ⊆ (w.refGraph m).components :=
    fun c' hc' => groups_perm.mem_iff.mp (List.mem_of_mem_take hc')
  have hc := groups_perm.mem_iff.mp (List.mem_of_getElem? hk)
  obtain ⟨hneeds, hfirst⟩ := getElem?_schedule hk
  refine ⟨(canFollow_iff hc hplaced).mp fun c' hc' => ?_, fun c' hc' hnew hcan => ?_⟩
  · exact (hneeds c' hc').resolve_left List.not_mem_nil
  · have hready := (canFollow_iff hc' hplaced).mpr hcan
    rcases hfirst c' (mem_ranked_iff.mpr hc') hnew fun c'' hc'' => Or.inr (hready c'' hc'') with
      rfl | hsub
    · exact Nat.le_refl _
    · have hpair : [c, c'].Pairwise fun c c' => declaredAt c < declaredAt c' :=
        pairwise_ranked.sublist hsub
      exact Nat.le_of_lt (List.rel_of_pairwise_cons hpair List.mem_cons_self)

/-- A group is not among those placed before it. -/
theorem getElem_not_mem_take {k : Nat} (hk : k < (w.groups m).length) :
    (w.groups m)[k] ∉ (w.groups m).take k := by
  intro hmem
  have hnd := nodup_groups (w := w) (m := m)
  rw [← List.take_append_drop k (w.groups m), List.drop_eq_getElem_cons hk] at hnd
  exact (List.nodup_append.mp hnd).2.2 _ hmem _ List.mem_cons_self rfl

end Workspace

/-! ## Modules of a graph -/

section Passed

variable {w : Workspace} {ids : List Nat} (hp : Passes w ids)

include hp in
/-- **What the analysis of a module follows** are the references that lead from
its declarations to its declarations. -/
theorem step_refGraph_iff_refersInside {lm : LinkedModule} (hlm : lm ∈ (graph w ids).modules)
    {a b : DeclId} (ha : a ∈ (linked w ids).declIds lm.id) :
    ((linked w ids).refGraph lm.id).Step a b ↔ (graph w ids).RefersInside lm.id a b := by
  obtain ⟨hmod, d, hd⟩ := mem_declIds_iff.mp ha
  have hdecl : (graph w ids).Declares a lm d := ⟨moduleOf?_eq_some hp hlm hmod, hd⟩
  constructor
  · rintro ⟨hedge, hb⟩
    have hto := (ModuleGraph.mem_localRefs_iff hdecl).mp hedge
    exact ⟨⟨lm, d, hdecl, hto.imp_right And.right⟩, ha, hb⟩
  · rintro ⟨⟨lm', d', hdecl', hto⟩, -, hb⟩
    obtain ⟨rfl, rfl⟩ := hdecl'.unique hdecl
    refine ⟨(ModuleGraph.mem_localRefs_iff hdecl).mpr (hto.imp_right fun h => ⟨?_, h⟩), hb⟩
    rw [(mem_declIds_iff.mp hb).1, hmod]

include hp in
theorem reflTransGen_refGraph_iff {lm : LinkedModule} (hlm : lm ∈ (graph w ids).modules)
    {a b : DeclId} (ha : a ∈ (linked w ids).declIds lm.id) :
    ReflTransGen ((linked w ids).refGraph lm.id).Step a b ↔
      ReflTransGen ((graph w ids).RefersInside lm.id) a b := by
  constructor
  · intro h
    have hchain : ReflTransGen ((graph w ids).RefersInside lm.id) a b ∧
        b ∈ (linked w ids).declIds lm.id := by
      induction h with
      | refl => exact ⟨.refl, ha⟩
      | tail _ hs ih =>
        obtain ⟨hchain, hb⟩ := ih
        have hin := (step_refGraph_iff_refersInside hp hlm hb).mp hs
        exact ⟨hchain.tail hin, hin.2.2⟩
    exact hchain.1
  · intro h
    exact h.lift id fun x y hin => (step_refGraph_iff_refersInside hp hlm hin.2.1).mpr hin

include hp in
/-- A group can follow others where the analysis of the module finds so. -/
theorem canFollow_graph_iff {lm : LinkedModule} (hlm : lm ∈ (graph w ids).modules)
    {placed : List (List DeclId)} {c : List DeclId}
    (hc : c ∈ ((linked w ids).refGraph lm.id).components) :
    (graph w ids).CanFollow lm.id placed c ↔ ∀ a ∈ c, ∀ b,
      ((linked w ids).refGraph lm.id).Step a b → b ∈ c ∨ ∃ c' ∈ placed, b ∈ c' := by
  refine forall₂_congr fun a ha => forall_congr' fun b => ?_
  rw [step_refGraph_iff_refersInside hp hlm (Digraph.subset_nodes_of_mem_components hc ha)]

omit hp in
/-- The groups of a module of the graph. -/
theorem components_of_mem_modules {lm : LinkedModule} (hlm : lm ∈ (graph w ids).modules) :
    lm.components = ((linked w ids).refGraph lm.id).components := by
  conv_lhs => rw [(mem_modules_graph_iff.mp hlm).2]
  rfl

omit hp in
/-- And the order of its declarations. -/
theorem order_of_mem_modules {lm : LinkedModule} (hlm : lm ∈ (graph w ids).modules) :
    lm.order = ((linked w ids).groups lm.id).flatten := by
  conv_lhs => rw [(mem_modules_graph_iff.mp hlm).2]
  rfl

omit hp in
/-- Declarations have the same number where they share a group. -/
theorem component?_eq_iff {lm : LinkedModule} (hlm : lm ∈ (graph w ids).modules) {a b : DeclId}
    (ha : a ∈ (linked w ids).declIds lm.id) (hb : b ∈ (linked w ids).declIds lm.id) :
    lm.component? a = lm.component? b ↔
      ∃ c ∈ ((linked w ids).refGraph lm.id).components, a ∈ c ∧ b ∈ c := by
  rw [Digraph.share_component_iff ha hb, ← Digraph.connected_iff_reaches,
    ← Digraph.findIdx?_components_eq_iff ha hb, LinkedModule.component?, LinkedModule.component?,
    components_of_mem_modules hlm]

omit hp in
theorem mem_groups_iff {i : Nat} {c : List DeclId} :
    c ∈ (linked w ids).groups i ↔ c ∈ ((linked w ids).refGraph i).components :=
  Workspace.groups_perm.mem_iff

include hp in
/-- **The groups of a module are placed in order.** -/
theorem emittedInOrder_groups {lm : LinkedModule} (hlm : lm ∈ (graph w ids).modules) :
    EmittedInOrder (graph w ids) lm ((linked w ids).groups lm.id) where
  ordered := by
    conv_rhs => rw [(mem_modules_graph_iff.mp hlm).2]
    exact Workspace.emissionOrder?_eq _ _ _
  perm := by
    rw [(mem_modules_graph_iff.mp hlm).2]
    exact order_perm _ _ _
  components := by
    rw [components_of_mem_modules hlm]
    exact Workspace.groups_perm
  flatten := order_of_mem_modules hlm
  members c hc := by
    obtain ⟨r, hr, rfl, hmem⟩ := Digraph.exists_of_mem_components (mem_groups_iff.mp hc)
    exact ⟨List.ne_nil_of_mem ((hmem r).mpr ⟨hr, Or.inl rfl⟩), List.filter_sublist⟩
  together a ha b hb := by
    rw [component?_eq_iff hlm ha hb]
    exact exists_congr fun c => and_congr_left' mem_groups_iff.symm
  connected a ha b hb := by
    rw [component?_eq_iff hlm ha hb, Digraph.share_component_iff ha hb,
      reflTransGen_refGraph_iff hp hlm ha, reflTransGen_refGraph_iff hp hlm hb]
  references_first a b hab := by
    have hstep := (step_refGraph_iff_refersInside hp hlm hab.2.1).mpr hab
    rw [component?_eq_iff hlm hab.2.1 hab.2.2, order_of_mem_modules hlm]
    exact Workspace.sublist_flatten_groups hab.2.1 hstep
  progress k hk := by
    have hc := mem_groups_iff.mp (List.getElem_mem hk)
    have hat := Workspace.first_of_getElem?_groups (List.getElem?_eq_getElem hk)
    rw [components_of_mem_modules hlm]
    exact ⟨_, hc, Workspace.getElem_not_mem_take hk, (canFollow_graph_iff hp hlm hc).mpr hat.1⟩
  first k c hk := by
    have hc := mem_groups_iff.mp (List.mem_of_getElem? hk)
    obtain ⟨hcan, hfirst⟩ := Workspace.first_of_getElem?_groups hk
    refine ⟨(canFollow_graph_iff hp hlm hc).mpr hcan, fun c' hc' hnew hcan' => ?_⟩
    have hc'' := mem_groups_iff.mp hc'
    exact hfirst c' hc'' hnew ((canFollow_graph_iff hp hlm hc'').mp hcan')

end Passed

/-- **Declarations are emitted in order.** In a graph that linking gives, the
declarations of every module are ordered by groups that refer to each other:
each group after those it refers to, and otherwise first what is declared
first. -/
theorem resolve_emitted_in_order {w : Workspace} {ids : List Nat} {g : ModuleGraph}
    (h : (resolve w ids).2 = .ok g) {lm : LinkedModule} (hlm : lm ∈ g.modules) :
    ∃ groups, EmittedInOrder g lm groups := by
  obtain ⟨hp, rfl⟩ := passes_of_resolve h
  exact ⟨_, emittedInOrder_groups hp hlm⟩

namespace Sample

/-- An order and its lines refer to each other, and a note and a number stand
between and after them. -/
def shop : Workspace :=
  [{ name := "shop", path := "shop",
     decls :=
       [{ name := "Order", body := .struct [free "id" (.ref [] "Id"),
           free "lines" (.list (.ref [] "Line"))] },
         { name := "Note", body := .struct [free "about" (.ref [] "Order")] },
         { name := "Line", body := .struct [free "of" (.ref [] "Order")] },
         { name := "Id", body := .newtype (.int 64) }] }]

theorem resolve_shop : (resolve shop [0]).2 = .ok (graph shop [0]) :=
  resolve_eq_graph (by decide +kernel)

/-- **The number comes first**, and the note after the lines. -/
theorem shop_emitted : (resolve shop [0]).2 = .ok (graph shop [0]) ∧
    ∃ lm ∈ (graph shop [0]).modules, lm.order = [⟨0, 3⟩, ⟨0, 0⟩, ⟨0, 2⟩, ⟨0, 1⟩] ∧
      ∃ groups, EmittedInOrder (graph shop [0]) lm groups := by
  have hp := (passes_of_resolve resolve_shop).1
  obtain ⟨lm, hlm, hid⟩ := (exists_mem_modules_iff hp (i := 0)).mpr ⟨_, by simp, rfl⟩
  refine ⟨resolve_shop, lm, hlm, ?_, resolve_emitted_in_order resolve_shop hlm⟩
  rw [order_of_mem_modules hlm, hid]
  cbv

end Sample

end WireModel
