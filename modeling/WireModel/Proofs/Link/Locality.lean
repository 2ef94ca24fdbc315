import WireModel.Proofs.Graph.Congruence
import WireModel.Proofs.Link.Accept
import WireModel.Proofs.Link.Emission

/-!
# Locality — what linking finds out about some modules is in these modules

Once references are bound, the checks and the analysis of some modules
read these modules and what they are bound to, and no name index. So if
bindings do not lead out of a set of modules (`Closed`), and another
workspace has the same modules there (`Workspace.AgreesOn`), it has the
same newtype circles, the same dependencies and the same graph.
-/

namespace WireModel

open Linking

/-- The module without its name index. -/
def Module.unindexed (m : Module) : Module := { m with index := none }

/-- What a copy shows of a module is the same of modules with the same
copy. -/
theorem map_eq_of_copies {β : Type} {copy : Module → Module} {a b : Option Module}
    (h : a.map copy = b.map copy) {f : Module → β} (hf : ∀ m, f (copy m) = f m) :
    a.map f = b.map f := by
  have hmap : ∀ o : Option Module, o.map f = (o.map copy).map f := fun o => by
    cases o with
    | none => rfl
    | some m => exact congrArg some (hf m).symm
  rw [hmap, h, ← hmap]

/-- **Two workspaces have the same modules at some numbers**, up to name
indexes. -/
def Workspace.AgreesOn (S : Nat → Prop) (w u : Workspace) : Prop :=
  ∀ i, S i → (w[i]?).map Module.unindexed = (u[i]?).map Module.unindexed

/-- **Bindings do not lead out of a set of modules**, as far as they are
followed: from imports, from declarations to those they extend, and from
newtypes to those they wrap. -/
structure Closed (S : Nat → Prop) (w : Workspace) : Prop where
  imports : ∀ i m, S i → w[i]? = some m → ∀ x ∈ m.imports, ∀ j, x.bound = some j → S j
  bases : ∀ a d, S a.module → w.decl? a = some d → ∀ b, d.base = some b → S b.module
  wrapped : ∀ a d t, S a.module → w.decl? a = some d → d.body = .newtype t →
    ∀ b, t.target? = some b → S b.module

variable {S : Nat → Prop} {w u : Workspace} {i : Nat} {ids : List Nat}

/-- Sorting compares members only. -/
theorem mergeSort_congr {α : Type} {le le' : α → α → Bool} {l : List α}
    (h : ∀ a ∈ l, ∀ b ∈ l, le a b = le' a b) : l.mergeSort le = l.mergeSort le' := by
  simpa using List.map_mergeSort (f := id) h

namespace Workspace.AgreesOn

theorem symm (h : AgreesOn S w u) : AgreesOn S u w := fun i hi => (h i hi).symm

/-- What is read off a module without its index is the same. -/
theorem map_eq {β : Type} (h : AgreesOn S w u) (hi : S i) {f : Module → β}
    (hf : ∀ m : Module, f m.unindexed = f m) : (w[i]?).map f = (u[i]?).map f :=
  map_eq_of_copies (h i hi) hf

/-! ## Declarations and their references -/

theorem decls_eq (h : AgreesOn S w u) (hi : S i) :
    (w[i]?).map (·.decls) = (u[i]?).map (·.decls) :=
  h.map_eq hi fun _ => rfl

theorem decl?_eq (h : AgreesOn S w u) {a : DeclId} (ha : S a.module) : w.decl? a = u.decl? a := by
  have hbind : ∀ v : Workspace,
      v.decl? a = ((v[a.module]?).map (·.decls)).bind (·[a.index]?) := fun v => by
    rw [Workspace.decl?]
    cases v[a.module]? <;> rfl
  rw [hbind, hbind, h.decls_eq ha]

theorem declIds_eq (h : AgreesOn S w u) (hi : S i) : w.declIds i = u.declIds i := by
  have hmap : ∀ v : Workspace, v.declIds i = (((v[i]?).map (·.decls)).map fun ds =>
      (List.range ds.length).map fun k => (⟨i, k⟩ : DeclId)).getD [] := fun v => by
    rw [Workspace.declIds]
    cases v[i]? <;> rfl
  rw [hmap, hmap, h.decls_eq hi]

theorem nameOf_eq (h : AgreesOn S w u) (hi : S i) : w.nameOf i = u.nameOf i := by
  rw [Workspace.nameOf, Workspace.nameOf, h.map_eq hi fun _ => rfl]

theorem localRefs_eq (h : AgreesOn S w u) {a : DeclId} (ha : S a.module) :
    w.localRefs a = u.localRefs a := by
  rw [localRefs, localRefs, h.decl?_eq ha]

theorem inlineRefs_eq (h : AgreesOn S w u) (hw : Closed S w) {a : DeclId} (ha : S a.module) :
    w.inlineRefs a = u.inlineRefs a := by
  rw [inlineRefs, inlineRefs, ← h.decl?_eq ha]
  cases hd : w.decl? a with
  | none => rfl
  | some d =>
    have hfields : w.allFields d = u.allFields d := by
      rw [allFields, allFields]
      cases hb : d.base with
      | none => rfl
      | some b => rw [Option.bind_some, Option.bind_some, h.decl?_eq (hw.bases a d ha hd b hb)]
    simp only [hfields]

theorem wrapsNewtype_eq (h : AgreesOn S w u) (hw : Closed S w) {a : DeclId} (ha : S a.module) :
    w.wrapsNewtype a = u.wrapsNewtype a := by
  rw [wrapsNewtype, wrapsNewtype, ← h.decl?_eq ha]
  cases hd : w.decl? a with
  | none => rfl
  | some d =>
    cases hbody : d.body with
    | newtype t =>
      simp only [hbody]
      refine List.filter_congr fun b hb => ?_
      rw [h.decl?_eq (hw.wrapped a d t ha hd hbody b (Option.mem_toList.mp hb))]
    | _ => simp only [hbody]

/-! ## The graphs of a module -/

theorem module_of_mem_declIds {a : DeclId} (ha : a ∈ w.declIds i) : a.module = i :=
  (mem_declIds_iff.mp ha).1

theorem refGraph_agrees (h : AgreesOn S w u) (hi : S i) : (w.refGraph i).Agrees (u.refGraph i) where
  nodes := h.declIds_eq hi
  edges _ ha := h.localRefs_eq (module_of_mem_declIds ha ▸ hi)

theorem inlineGraph_agrees (h : AgreesOn S w u) (hw : Closed S w) (hi : S i) :
    (w.inlineGraph i).Agrees (u.inlineGraph i) where
  nodes := h.declIds_eq hi
  edges a ha := by
    have hrefs : w.inlineRefs a = u.inlineRefs a :=
      h.inlineRefs_eq hw (module_of_mem_declIds ha ▸ hi)
    simp only [inlineGraph, hrefs]

theorem wrapGraph_agrees (h : AgreesOn S w u) (hw : Closed S w) (hi : S i) :
    (w.wrapGraph i).Agrees (u.wrapGraph i) where
  nodes := by
    simp only [wrapGraph]
    rw [← h.declIds_eq hi]
    exact List.filter_congr fun a ha => by rw [h.decl?_eq (module_of_mem_declIds ha ▸ hi)]
  edges _ ha := h.wrapsNewtype_eq hw (module_of_mem_declIds (List.mem_of_mem_filter ha) ▸ hi)

/-! ## Checks -/

/-- **The same newtypes wrap each other in circles.** -/
theorem recursionErrors_eq (h : AgreesOn S w u) (hw : Closed S w) (hi : S i) :
    recursionErrors w i = recursionErrors u i := by
  have hg := h.wrapGraph_agrees hw hi
  simp only [recursionErrors, ← hg.find?_isCyclic_eq, h.nameOf_eq hi]
  cases hc : (w.wrapGraph i).components.find? (w.wrapGraph i).isCyclic with
  | none => rfl
  | some c =>
    have hmem := List.mem_of_find?_eq_some hc
    have hname : ∀ d ∈ (w.wrapGraph i).nodes,
        ((w.decl? d).map (·.name)).getD [] = ((u.decl? d).map (·.name)).getD [] := fun d hd => by
      rw [h.decl?_eq (module_of_mem_declIds (List.mem_of_mem_filter hd) ▸ hi)]
    simp only [Option.map_some, Digraph.map_head?_eq hmem hname,
      hg.map_cyclePath_eq (nodup_declIds.filter _) hmem (List.find?_some hc) hname]

/-! ## Analysis -/

/-- The imported modules are the same, in the same order. -/
theorem dependencies_eq (h : AgreesOn S w u) (hw : Closed S w) (hi : S i) :
    dependencies w i = dependencies u i := by
  have hbound : ((u[i]?).map fun m => m.imports.filterMap (·.bound)).getD [] =
      ((w[i]?).map fun m => m.imports.filterMap (·.bound)).getD [] := by
    rw [h.map_eq hi fun _ => rfl]
  simp only [dependencies, hbound]
  have hpath : ∀ j ∈ (((w[i]?).map fun m => m.imports.filterMap (·.bound)).getD []).eraseDups,
      ((w[j]?).map (·.path)).getD [] = ((u[j]?).map (·.path)).getD [] := fun j hj => by
    have hj := List.mem_eraseDups.mp hj
    cases hm : w[i]? with
    | none => simp [hm] at hj
    | some m =>
      obtain ⟨x, hx, hb⟩ : ∃ x ∈ m.imports, x.bound = some j := by simpa [hm] using hj
      rw [h.map_eq (hw.imports i m hi hm x hx j hb) fun _ => rfl]
  exact mergeSort_congr fun a ha b hb => by rw [hpath a ha, hpath b hb]

theorem groupNeeds_eq (h : AgreesOn S w u) (hi : S i) {c : List DeclId}
    (hc : c ∈ (w.refGraph i).components) : w.groupNeeds i c = u.groupNeeds i c := by
  have hrefs : c.flatMap w.localRefs = c.flatMap u.localRefs := List.flatMap_congr fun a ha =>
    h.localRefs_eq (module_of_mem_declIds (Digraph.subset_nodes_of_mem_components hc ha) ▸ hi)
  rw [groupNeeds, groupNeeds, hrefs, (h.refGraph_agrees hi).components_eq]

theorem orderComponents_eq (h : AgreesOn S w u) (hi : S i) :
    orderComponents w i (w.refGraph i).components =
      orderComponents u i (u.refGraph i).components := by
  have hranked : w.ranked i = u.ranked i := by
    rw [ranked, ranked, h.declIds_eq hi, (h.refGraph_agrees hi).components_eq]
  rw [Workspace.orderComponents_eq, Workspace.orderComponents_eq, ← hranked]
  exact schedule_congr fun c hc => h.groupNeeds_eq hi (mem_ranked_iff.mp hc)

/-- **The same is found out about a module.** -/
theorem analyze_eq (h : AgreesOn S w u) (hw : Closed S w) (hi : S i) (deps : List Nat) :
    analyze w i deps = analyze u i deps := by
  have hrefs := h.refGraph_agrees hi
  have hinline := h.inlineGraph_agrees hw hi
  have hindirect : ∀ c ∈ (u.inlineGraph i).components.filter (u.inlineGraph i).isCyclic,
      ∀ a ∈ c, w.inlineRefs a = u.inlineRefs a := fun c hc a ha => by
    rw [← hinline.filter_isCyclic_eq] at hc
    have hnode := Digraph.subset_nodes_of_mem_components (List.mem_of_mem_filter hc) ha
    exact h.inlineRefs_eq hw (module_of_mem_declIds hnode ▸ hi)
  simp only [analyze, hrefs.filter_isCyclic_eq, hinline.filter_isCyclic_eq,
    h.orderComponents_eq hi, LinkedModule.mk.injEq, true_and]
  refine ⟨hrefs.components_eq, ?_⟩
  exact List.flatMap_congr fun c hc => List.flatMap_congr fun a ha => by rw [hindirect c hc a ha]

end Workspace.AgreesOn

/-! ## Import circles -/

/-- **The check for import circles reads names and imports.** -/
theorem cycleErrors_congr (hnd : ids.Nodup) (h : ∀ i ∈ ids,
    (w[i]?).map (fun m => (m.name, m.imports)) = (u[i]?).map fun m => (m.name, m.imports)) :
    cycleErrors w ids = cycleErrors u ids := by
  have hmap : ∀ i ∈ ids, ∀ {β : Type} (f : Text × List Import → β),
      (w[i]?).map (fun m => f (m.name, m.imports)) = (u[i]?).map fun m => f (m.name, m.imports) :=
    fun i hi _ f => by simpa [Function.comp_def] using congrArg (Option.map f) (h i hi)
  have hg : (importGraph w ids).Agrees (importGraph u ids) := by
    refine ⟨rfl, fun i hi => ?_⟩
    exact congrArg (Option.getD · []) (hmap i hi fun x => x.2.filterMap (·.bound))
  have hname : ∀ i ∈ (importGraph w ids).nodes, w.nameOf i = u.nameOf i :=
    fun i hi => congrArg (Option.getD · []) (hmap i hi fun x => x.1)
  rw [cycleErrors, cycleErrors, ← hg.filter_isCyclic_eq]
  refine List.map_congr_left fun c hc => ?_
  obtain ⟨hmem, hcyc⟩ := List.mem_filter.mp hc
  rw [Digraph.map_head?_eq hmem hname, hg.map_cyclePath_eq hnd hmem hcyc hname]

/-! ## The end of linking -/

/-- **Two graphs are the same**: what was found out about their modules is,
and the modules are with all bindings, up to name indexes. -/
structure ModuleGraph.Same (g h : ModuleGraph) : Prop where
  modules : g.modules = h.modules
  contents : ∀ m ∈ g.modules,
    (g.workspace[m.id]?).map Module.unindexed = (h.workspace[m.id]?).map Module.unindexed

/-- **Two results of linking are the same**: the same graph, or the same
failure with the same errors in the same order. -/
inductive SameResult : Except LinkFailure ModuleGraph → Except LinkFailure ModuleGraph → Prop
  | graph {g h : ModuleGraph} : g.Same h → SameResult (.ok g) (.ok h)
  | failure (f : LinkFailure) : SameResult (.error f) (.error f)

namespace SameResult

variable {r r' r'' : Except LinkFailure ModuleGraph}

theorem symm (h : SameResult r r') : SameResult r' r := by
  cases h with
  | graph h => exact .graph ⟨h.modules.symm, fun m hm => (h.contents m (h.modules ▸ hm)).symm⟩
  | failure f => exact .failure f

theorem trans (h : SameResult r r') (h' : SameResult r' r'') : SameResult r r'' := by
  cases h with
  | failure f => exact h'
  | graph h =>
    cases h' with
    | graph h' =>
      exact .graph ⟨h.modules.trans h'.modules,
        fun m hm => (h.contents m hm).trans (h'.contents m (h.modules ▸ hm))⟩

end SameResult

/-- **The last steps read the modules they are about**, and no index. -/
theorem finish_same (h : w.AgreesOn S u) (hw : Closed S w) (hids : ∀ i ∈ ids, S i) :
    SameResult (finish w ids) (finish u ids) := by
  have herrors : ids.flatMap (recursionErrors w) = ids.flatMap (recursionErrors u) :=
    List.flatMap_congr fun i hi => h.recursionErrors_eq hw (hids i hi)
  have hschedule : schedule (dependencies w) [] ids = schedule (dependencies u) [] ids :=
    schedule_congr fun i hi => h.dependencies_eq hw (hids i hi)
  have hsub : ∀ i ∈ schedule (dependencies u) [] ids, S i := fun i hi => hids i (schedule_subset hi)
  rw [finish, finish, herrors]
  split
  · exact .failure _
  · rw [hschedule]
    refine .graph ⟨List.map_congr_left fun i hi => ?_, fun m hm => ?_⟩
    · rw [h.dependencies_eq hw (hsub i hi), h.analyze_eq hw (hsub i hi)]
    · obtain ⟨i, hi, rfl⟩ := List.mem_map.mp hm
      exact h i (hsub i hi)

end WireModel
