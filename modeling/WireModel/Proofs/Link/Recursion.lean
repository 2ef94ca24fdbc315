import WireModel.Proofs.Link.Linked

/-!
# Recursion — which declarations come back to themselves

A declaration refers to the virtual struct it extends and to whatever a
reference in one of its own types leads to, in any module
(`ModuleGraph.RefersTo`). Linking looks for circles inside one module at a
time and follows no reference that leaves it. Nothing is missed by that:
a reference that leaves a module goes down an import, imports do not go
in circles, and so no chain of references comes back to a module that it
has left (`Descends.within`). A declaration is called recursive exactly
when it comes back to itself in the whole graph (`isRecursive_iff`).
-/

namespace WireModel

open Relation Linking

/-! ## Relations that go down the imports -/

section Descends

variable {w : Workspace} {ids : List Nat} {R : DeclId → DeclId → Prop}

/-- **A relation between declarations goes down the imports**: it stays in a
module, or leads to one that the module imports. -/
def Descends (w : Workspace) (ids : List Nat) (R : DeclId → DeclId → Prop) : Prop :=
  ∀ ⦃a b⦄, R a b → b.module = a.module ∨ ImportsModule w ids a.module b.module

/-- The part of a relation that is in a module. -/
def Within (i : Nat) (R : DeclId → DeclId → Prop) (a b : DeclId) : Prop :=
  R a b ∧ a.module = i ∧ b.module = i

theorem Descends.reflTransGen (hR : Descends w ids R) {a b : DeclId} (h : ReflTransGen R a b) :
    ReflTransGen (ImportsModule w ids) a.module b.module := by
  induction h with
  | refl => exact .refl
  | tail _ hs ih =>
    rcases hR hs with heq | himp
    · rw [heq]
      exact ih
    · exact ih.tail himp

/-- **A chain that comes back to its module never leaves it.** Where it left
the module, imports would go in a circle. -/
theorem Descends.within (hR : Descends w ids R) (hac : ∀ i, ¬ TransGen (ImportsModule w ids) i i)
    {a b : DeclId} (h : TransGen R a b)
    (hback : ReflTransGen (ImportsModule w ids) b.module a.module) :
    TransGen (Within a.module R) a b ∧ b.module = a.module := by
  -- a step out of the module, with a way back, would close a circle of imports
  have hstays : ∀ {b c}, b.module = a.module → R b c →
      ReflTransGen (ImportsModule w ids) c.module a.module → c.module = a.module := by
    intro b c hb hs hc
    rcases hR hs with heq | himp
    · rw [heq, hb]
    · rw [hb] at himp
      exact absurd (TransGen.head' himp hc) (hac _)
  induction h with
  | single hs =>
    have hmod := hstays rfl hs hback
    exact ⟨.single ⟨hs, rfl, hmod⟩, hmod⟩
  | tail _ hs ih =>
    obtain ⟨hchain, hb⟩ := ih ((hR.reflTransGen (.single hs)).trans hback)
    have hmod := hstays hb hs hback
    exact ⟨hchain.tail ⟨hs, hb, hmod⟩, hmod⟩

/-- **What the analysis of a module follows are whole chains**, when its steps
are those of a relation that goes down the imports, as far as they stay
in the module. -/
theorem Descends.transGen_iff (hR : Descends w ids R)
    (hac : ∀ i, ¬ TransGen (ImportsModule w ids) i i) {D : Digraph DeclId} {i : Nat}
    (hstep : ∀ ⦃a b⦄, a.module = i → (D.Step a b ↔ R a b ∧ b.module = i)) {a b : DeclId}
    (ha : a.module = i) (hb : b.module = i) : TransGen D.Step a b ↔ TransGen R a b := by
  constructor
  · intro h
    have hchain : TransGen R a b ∧ b.module = i := by
      clear hb
      induction h with
      | single hs => exact ((hstep ha).mp hs).imp_left .single
      | tail _ hs ih =>
        obtain ⟨hchain, hc⟩ := ih
        exact ((hstep hc).mp hs).imp_left hchain.tail
    exact hchain.1
  · intro h
    have hback : ReflTransGen (ImportsModule w ids) b.module a.module := by rw [ha, hb]
    obtain ⟨hchain, -⟩ := hR.within hac h hback
    exact hchain.lift id fun x y hxy =>
      (hstep (hxy.2.1.trans ha)).mpr ⟨hxy.1, hxy.2.2.trans ha⟩

/-- So it is with chains that may be empty. -/
theorem Descends.reflTransGen_iff (hR : Descends w ids R)
    (hac : ∀ i, ¬ TransGen (ImportsModule w ids) i i) {D : Digraph DeclId} {i : Nat}
    (hstep : ∀ ⦃a b⦄, a.module = i → (D.Step a b ↔ R a b ∧ b.module = i)) {a b : DeclId}
    (ha : a.module = i) (hb : b.module = i) : ReflTransGen D.Step a b ↔ ReflTransGen R a b := by
  rw [reflTransGen_iff_eq_or_transGen, reflTransGen_iff_eq_or_transGen,
    hR.transGen_iff hac hstep ha hb]

end Descends

/-! ## References -/

namespace ModuleGraph

/-- **A declaration refers to another one**: it extends it, or a reference
somewhere in a type of its own fields, payloads or of its value leads
to it. -/
def RefersTo (g : ModuleGraph) (a b : DeclId) : Prop :=
  ∃ m d, g.Declares a m d ∧ (d.base = some b ∨ ∃ t ∈ d.types, b ∈ t.targets)

/-- What the analysis of a module follows are the references that stay in
it. -/
theorem mem_localRefs_iff {g : ModuleGraph} {a b : DeclId} {m : LinkedModule} {d : Decl}
    (hd : g.Declares a m d) : b ∈ g.workspace.localRefs a ↔
      d.base = some b ∨ b.module = a.module ∧ ∃ t ∈ d.types, b ∈ t.targets := by
  simp only [Workspace.localRefs, hd.2, List.mem_append, Option.mem_toList, List.mem_filter,
    List.mem_flatMap, beq_iff_eq]
  exact or_congr_right and_comm

end ModuleGraph

section References

/-- The types of a declaration are those of its members. -/
theorem Decl.exists_member_of_mem_types {d : Decl} {t : TypeExpr} (h : t ∈ d.types) :
    ∃ x ∈ d.members, x.2 = t := by
  rw [Decl.types] at h
  split at h
  · rename_i vs tag payload hb
    obtain ⟨v, hv, rfl⟩ := List.mem_map.mp h
    refine ⟨(v.name, v.payload), ?_, rfl⟩
    rw [Decl.members, hb]
    exact List.mem_map_of_mem (List.mem_filter.mp hv).1
  · exact List.mem_map.mp h

/-- The members of a linked declaration are those it was given with, bound. -/
theorem members_linkDecl {u : Workspace} {m : Module} {self : Nat} {d : Decl} :
    (linkDecl u m self d).members =
      d.members.map fun x => (x.1, x.2.bindRefs (u.target? m self)) :=
  Decl.members_mapTypes

/-- What has a target is a reference. -/
theorem TypeExpr.kind?_of_target? {t : TypeExpr} {b : DeclId} (h : t.target? = some b) :
    t.kind? = some .ref := by
  cases t with
  | missing => cases h
  | node k width r elem => cases k <;> first | rfl | cases h

variable {w : Workspace} {ids : List Nat} (hp : Passes w ids)

include hp in
/-- **A reference in a member leads to a declaration of the graph**, in the
module of the member or in one that is imported. -/
theorem of_mem_nodes {i : Nat} {m : Module} (hm : Given w ids i m) {d : Decl} (hd : d ∈ m.decls)
    {x : Text × TypeExpr} (hx : x ∈ d.members) {p : TypeExpr}
    (hmem : p ∈ (x.2.bindRefs
      ((withImports w ids).target? (m.bindImports (paths w ids)) i)).nodes)
    {b : DeclId} (hb : p.target? = some b) :
    (∃ m e, (graph w ids).Declares b m e) ∧
      (b.module = i ∨ ImportsModule w ids i b.module) := by
  have hnamed := (passes_iff.mp hp).2 i m hm d hd x hx
  obtain ⟨r, -, htarget⟩ :=
    exists_ref_of_mem_nodes hnamed hmem (TypeExpr.kind?_of_target? hb)
  rw [hb] at htarget
  obtain ⟨e, hnames, -⟩ := (target?_eq_some_iff hp.registered hp.imports hm).mp htarget.symm
  obtain ⟨n, hn⟩ := given_of_looksInto hm hnames.1
  obtain ⟨m', hdecl⟩ := declares_of_given hp hn hnames.2.1
  refine ⟨⟨m', _, hdecl⟩, ?_⟩
  rcases hnames.1 with ⟨-, heq⟩ | ⟨-, m₁, n₁, hm₁, hn₁, y, hy, -, hpath⟩
  · exact Or.inl heq
  · exact Or.inr ⟨m₁, n₁, hm₁, hn₁, y, hy, hpath⟩

include hp in
/-- So it is for what a reference in a type of a declaration leads to. -/
theorem of_mem_targets {a b : DeclId} {m : LinkedModule} {d : Decl}
    (hd : (graph w ids).Declares a m d) {t : TypeExpr} (ht : t ∈ d.types) (hb : b ∈ t.targets) :
    (∃ m e, (graph w ids).Declares b m e) ∧
      (b.module = a.module ∨ ImportsModule w ids a.module b.module) := by
  obtain ⟨m₀, d₀, hm, hd₀, rfl⟩ := exists_of_declares hp hd
  have hmem : d₀ ∈ m₀.decls := List.mem_of_getElem? ((hm.decl? a rfl).symm.trans hd₀)
  obtain ⟨x', hx', rfl⟩ := Decl.exists_member_of_mem_types ht
  rw [members_linkDecl] at hx'
  obtain ⟨x, hx, rfl⟩ := List.mem_map.mp hx'
  obtain ⟨p, hpt, hpb⟩ := List.mem_filterMap.mp hb
  exact of_mem_nodes hp hm hmem hx hpt hpb

include hp in
/-- **What a declaration extends** is a declaration of its module. -/
theorem of_base (hbases : BasesLinked w) {a b : DeclId} {m : LinkedModule} {d : Decl}
    (hd : (graph w ids).Declares a m d) (hb : d.base = some b) :
    (∃ m e, (graph w ids).Declares b m e) ∧ b.module = a.module := by
  obtain ⟨m₀, d₀, hm, hd₀, rfl⟩ := exists_of_declares hp hd
  have hmem : d₀ ∈ m₀.decls := List.mem_of_getElem? ((hm.decl? a rfl).symm.trans hd₀)
  by_cases hext : d₀.extend = []
  · -- without a name nothing is extended, and then there is no base
    have hbase : d₀.base = none := hbases m₀ (List.mem_of_getElem? hm.2) d₀ hmem hext
    simp [linkDecl, bindBase, bindBaseBy, hext, hbase] at hb
  · obtain ⟨k, e, hk, -, -, -, hbase, -⟩ := base_linkDecl hp hm hmem hext
    obtain rfl := Option.some.inj (hbase.symm.trans hb)
    have hgiven : w.decl? ⟨a.module, k⟩ = some e := (hm.decl? ⟨a.module, k⟩ rfl).trans hk
    have hdecl : ∃ m', (graph w ids).Declares ⟨a.module, k⟩ m' _ := declares_of_given hp hm hgiven
    exact ⟨hdecl.imp fun m' h => ⟨_, h⟩, rfl⟩

include hp in
/-- References lead to declarations of the graph. -/
theorem exists_declares_of_refersTo (hbases : BasesLinked w) {a b : DeclId}
    (h : (graph w ids).RefersTo a b) : ∃ m e, (graph w ids).Declares b m e := by
  obtain ⟨m, d, hd, hbase | ⟨t, ht, hb⟩⟩ := h
  · exact (of_base hp hbases hd hbase).1
  · exact (of_mem_targets hp hd ht hb).1

include hp in
/-- **References go down the imports.** -/
theorem descends_refersTo (hbases : BasesLinked w) : Descends w ids (graph w ids).RefersTo := by
  rintro a b ⟨m, d, hd, hbase | ⟨t, ht, hb⟩⟩
  · exact Or.inl (of_base hp hbases hd hbase).2
  · exact (of_mem_targets hp hd ht hb).2

/-! ## References inside a module -/

/-- The module that owns a declaration is that of every declaration of the
module. -/
theorem ModuleGraph.moduleOf?_congr {g : ModuleGraph} {a b : DeclId} (h : b.module = a.module) :
    g.moduleOf? b = g.moduleOf? a := by
  rw [moduleOf?, moduleOf?, h]

include hp in
/-- **The steps of the analysis of a module** are the references that stay in
it. -/
theorem step_refGraph_iff (hbases : BasesLinked w) {i : Nat} {m : LinkedModule}
    (hi : ∀ a : DeclId, a.module = i → (graph w ids).moduleOf? a = some m) {a b : DeclId}
    (ha : a.module = i) : ((graph w ids).workspace.refGraph i).Step a b ↔
      (graph w ids).RefersTo a b ∧ b.module = i := by
  constructor
  · rintro ⟨hedge, hnode⟩
    have hb := (mem_declIds_iff.mp hnode).1
    cases hd : (graph w ids).workspace.decl? a with
    | none => simp [Workspace.refGraph, Workspace.localRefs, hd] at hedge
    | some d =>
      refine ⟨⟨m, d, ⟨hi a ha, hd⟩, ?_⟩, hb⟩
      exact ((ModuleGraph.mem_localRefs_iff ⟨hi a ha, hd⟩).mp hedge).imp_right And.right
  · rintro ⟨hrefers, hb⟩
    obtain ⟨m', e, he⟩ := exists_declares_of_refersTo hp hbases hrefers
    obtain ⟨n, d, hd, hto⟩ := hrefers
    refine ⟨(ModuleGraph.mem_localRefs_iff hd).mpr ?_, mem_declIds_iff.mpr ⟨hb, e, he.2⟩⟩
    exact hto.imp_right fun h => ⟨hb.trans ha.symm, h⟩

include hp in
/-- **Chains of references between declarations of a module** are those that
the analysis of the module follows. -/
theorem transGen_step_refGraph_iff (hbases : BasesLinked w) {a b : DeclId} {m : LinkedModule}
    (ha : (graph w ids).moduleOf? a = some m) (hb : b.module = a.module) :
    TransGen ((graph w ids).workspace.refGraph a.module).Step a b ↔
      TransGen (graph w ids).RefersTo a b :=
  (descends_refersTo hp hbases).transGen_iff (passes_iff.mp hp).1.imports_acyclic
    (fun _ _ h => step_refGraph_iff hp hbases
      (fun _ h' => (ModuleGraph.moduleOf?_congr h').trans ha) h) rfl hb

end References

/-! ## What the analysis finds -/

section Analysis

variable {w : Workspace} {ids : List Nat}

/-- **Recursive means to come back to itself, in the whole graph.** In a
graph that linking gives, for every declaration of a module:

* the module calls it recursive exactly when a chain of references leads
  from it back to it, through whatever modules;
* it has the number of a group, and another declaration of the module has
  the same one exactly when each of the two leads to the other. -/
theorem isRecursive_iff {g : ModuleGraph} (hbases : BasesLinked w)
    (hg : (resolve w ids).2 = .ok g) {id : DeclId} {m : LinkedModule} {d : Decl}
    (hd : g.Declares id m d) :
    (m.isRecursive id = true ↔ TransGen g.RefersTo id id) ∧
      (∃ n, m.component? id = some n) ∧
      ∀ id' d', g.Declares id' m d' → id' ≠ id → (m.component? id' = m.component? id ↔
        TransGen g.RefersTo id id' ∧ TransGen g.RefersTo id' id) := by
  obtain ⟨hp, rfl⟩ := passes_of_resolve hg
  have hm := eq_analyze_of_moduleOf? hd.1
  have hnd : ((linked w ids).refGraph id.module).nodes.Nodup := nodup_declIds
  have hnode : id ∈ ((linked w ids).refGraph id.module).nodes :=
    mem_declIds_iff.mpr ⟨rfl, d, hd.2⟩
  -- what a module knows of its declarations is what its analysis found
  have hrec : m.isRecursive id = true ↔ id ∈ (((linked w ids).refGraph id.module).components.filter
      ((linked w ids).refGraph id.module).isCyclic).flatten := by
    rw [hm, LinkedModule.isRecursive, List.contains_iff_mem]
    rfl
  have hcomp : ∀ b, m.component? b =
      ((linked w ids).refGraph id.module).components.findIdx? (·.contains b) := by
    rw [hm]
    exact fun _ => rfl
  refine ⟨?_, ?_, fun id' d' hd' hne => ?_⟩
  · rw [hrec, Digraph.mem_flatten_filter_isCyclic_iff hnd hnode]
    exact transGen_step_refGraph_iff hp hbases hd.1 rfl
  · rw [hcomp]
    exact Digraph.exists_findIdx?_components hnode
  · have hmod : id'.module = id.module := hd'.id_module.symm.trans hd.id_module
    have hnode' : id' ∈ ((linked w ids).refGraph id.module).nodes :=
      mem_declIds_iff.mpr ⟨hmod, d', hd'.2⟩
    rw [hcomp, hcomp, Digraph.findIdx?_components_eq_iff hnode' hnode, Digraph.Connected,
      or_iff_right hne, and_comm]
    -- each of the two chains is one of the module that both are in
    have hto := transGen_step_refGraph_iff hp hbases hd.1 hmod
    have hfrom := transGen_step_refGraph_iff hp hbases hd'.1 hmod.symm
    rw [hmod] at hfrom
    exact and_congr hto hfrom

end Analysis

namespace Sample

/-- A struct that has itself as a field only by the virtual struct that it
extends. -/
def trees : Workspace :=
  [{ name := "trees", path := "trees",
     decls :=
       [{ name := "Grown", body := .virtual [free "parent" (.ref [] "Branch")] },
         { name := "Branch", extend := "Grown", body := .struct [] }] }]

theorem basesLinked_trees : BasesLinked trees := by
  unfold BasesLinked
  decide

theorem resolve_trees : (resolve trees [0]).2 = .ok (graph trees [0]) :=
  resolve_eq_graph (by decide +kernel)

/-- The virtual struct once it is linked. -/
def grown : Decl :=
  { name := "Grown"
    body := .virtual
      [free "parent" (.node .ref 0 (some ⟨[], "Branch", some ⟨0, 1⟩⟩) .missing)] }

/-- The struct once it is linked. -/
def branch : Decl :=
  { name := "Branch", extend := "Grown", base := some ⟨0, 0⟩, body := .struct [] }

/-- **A branch is recursive**, and it is in one group with what it extends. -/
theorem branch_isRecursive : BasesLinked trees ∧ (resolve trees [0]).2 = .ok (graph trees [0]) ∧
    ∃ m, (graph trees [0]).Declares ⟨0, 1⟩ m branch ∧ m.isRecursive ⟨0, 1⟩ = true ∧
      m.component? ⟨0, 0⟩ = m.component? ⟨0, 1⟩ := by
  have hp := (passes_of_resolve resolve_trees).1
  obtain ⟨m, hm⟩ : ∃ m, (graph trees [0]).Declares ⟨0, 1⟩ m branch :=
    exists_declares_of_bound hp ⟨by simp, rfl⟩ rfl
  have hg : (graph trees [0]).Declares ⟨0, 0⟩ m grown := ⟨hm.1, by rw [workspace_graph]; rfl⟩
  have hup : (graph trees [0]).RefersTo ⟨0, 1⟩ ⟨0, 0⟩ := ⟨m, branch, hm, Or.inl rfl⟩
  have hdown : (graph trees [0]).RefersTo ⟨0, 0⟩ ⟨0, 1⟩ :=
    ⟨m, grown, hg, Or.inr ⟨_, List.mem_cons_self .., by decide⟩⟩
  obtain ⟨hrec, -, hcomp⟩ := isRecursive_iff basesLinked_trees resolve_trees hm
  exact ⟨basesLinked_trees, resolve_trees, m, hm, hrec.mpr (.tail (.single hup) hdown),
    (hcomp ⟨0, 0⟩ grown hg (by decide)).mpr ⟨.single hup, .single hdown⟩⟩

end Sample

end WireModel
