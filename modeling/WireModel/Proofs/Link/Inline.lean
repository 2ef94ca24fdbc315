import WireModel.Decode.Reader
import WireModel.Proofs.Link.Recursion

/-!
# What is held by value

A declaration embeds another one if a value of it holds one without a list
or a mapping in between: by a member that is a reference, bare or as an
optional (`ModuleGraph.Embeds`). Linking marks the members on circles of
this relation, again one module at a time, and again the circles it finds
are those of the whole graph (`isIndirect_iff`).
-/

namespace WireModel

open Relation Linking

/-- **A declaration embeds another one**: a type that values of it hold is a
reference to it, or an optional one. -/
def ModuleGraph.Embeds (g : ModuleGraph) (a b : DeclId) : Prop :=
  ∃ m d, g.Declares a m d ∧ ∃ x ∈ g.workspace.heldTypes d, x.2.unwrap.target? = some b

/-! ## Types without one level of optionality -/

/-- The type of a field's value is an optional of its type at most. -/
@[simp] theorem Field.unwrap_effectiveType {f : Field} :
    f.effectiveType.unwrap = f.type.unwrap := by
  rw [Field.effectiveType]
  split
  · rfl
  · rename_i h
    have hopt : f.type.isOptional = false := by
      simp only [Bool.or_eq_true, not_or, Bool.not_eq_true] at h
      exact h.2
    rw [TypeExpr.unwrap_of_not_optional hopt]
    rfl

/-- What has a target without its optionality is a node of the type. -/
theorem TypeExpr.unwrap_mem_nodes {t : TypeExpr} {b : DeclId} (h : t.unwrap.target? = some b) :
    t.unwrap ∈ t.nodes := by
  cases t with
  | missing => cases h
  | node k width r elem =>
    by_cases hk : k = .optional
    · subst hk
      change elem.target? = some b at h
      rw [unwrap, nodes]
      cases elem with
      | missing => cases h
      | node k' width' r' elem' => exact List.mem_cons_of_mem _ (List.mem_cons_self ..)
    · have hopt : (node k width r elem).isOptional = false := by simp [isOptional, kind?, hk]
      rw [unwrap_of_not_optional hopt, nodes]
      exact List.mem_cons_self ..

/-- A bare reference leads to the same without its optionality, of which it has
none. -/
theorem TypeExpr.unwrap_of_target? {t : TypeExpr} {b : DeclId} (h : t.target? = some b) :
    t.unwrap.target? = some b := by
  rwa [unwrap_of_not_optional (by simp [isOptional, kind?_of_target? h])]

/-! ## Members that may be held by pointer -/

/-- The rule of a reference is that of what it leads to. -/
theorem Rule.ofType_of_target? {w : Workspace} {t : TypeExpr} {b : DeclId}
    (h : t.target? = some b) : Rule.ofType w t = Rule.ofTarget w (some b) := by
  cases t with
  | missing => cases h
  | node k width r elem =>
    cases k with
    | ref =>
      cases r with
      | none => cases h
      | some r =>
        have hr : r.target = some b := h
        rw [Rule.ofType, Option.bind_some, hr]
    | _ => cases h

/-- **What may be held by pointer** are bare references to structs and
newtypes. -/
theorem isBoxable_iff {w : Workspace} {t : TypeExpr} : Reader.isBoxable w t = true ↔
    ∃ b e, t.target? = some b ∧ w.decl? b = some e ∧ (e.kind = .struct ∨ e.kind = .newtype) := by
  have hshape : ∀ {b e}, w.decl? b = some e →
      (((Rule.ofTarget w (some b)).shape = .record ∨ (Rule.ofTarget w (some b)).shape =
        .transparent) ↔ e.kind = .struct ∨ e.kind = .newtype) := by
    intro b e he
    rw [Rule.ofTarget, he, Decl.kind]
    cases hb : e.body <;> simp [hb, Rule.shape, Body.kind]
  simp only [Reader.isBoxable, Bool.and_eq_true, Bool.or_eq_true, beq_iff_eq]
  constructor
  · rintro ⟨hk, hs⟩
    cases t with
    | missing => cases hk
    | node k width r elem =>
      obtain rfl : k = .ref := Option.some.inj hk
      rw [Rule.ofType] at hs
      cases hr : r.bind (·.target) with
      | none => simp [hr, Rule.ofTarget, Rule.shape] at hs
      | some b =>
        obtain ⟨r', rfl, hb⟩ := Option.bind_eq_some_iff.mp hr
        rw [hr] at hs
        cases he : w.decl? b with
        | none => simp [Rule.ofTarget, he, Rule.shape] at hs
        | some e => exact ⟨b, e, hb, he, (hshape he).mp hs⟩
  · rintro ⟨b, e, ht, he, hk⟩
    rw [Rule.ofType_of_target? ht]
    exact ⟨TypeExpr.kind?_of_target? ht, (hshape he).mpr hk⟩

/-! ## References held by value -/

/-- The references, bare or optional, that a list of named types has. -/
theorem mem_filterMap_target_iff {l : List (Text × TypeExpr)} {name : Text} {b : DeclId} :
    (name, b) ∈ l.filterMap (fun x => x.2.unwrap.target?.map fun t => (x.1, t)) ↔
      ∃ t, (name, t) ∈ l ∧ t.unwrap.target? = some b := by
  simp only [List.mem_filterMap, Option.map_eq_some_iff, Prod.mk.injEq, Prod.exists]
  constructor
  · rintro ⟨n, t, hmem, b', ht, rfl, rfl⟩
    exact ⟨t, hmem, ht⟩
  · rintro ⟨t, hmem, ht⟩
    exact ⟨name, t, hmem, b, ht, rfl, rfl⟩

/-- **The references held by value** are those of the types that values of a
declaration hold. -/
theorem mem_inlineRefs_iff {w : Workspace} {a : DeclId} {d : Decl} (hd : w.decl? a = some d)
    {name : Text} {b : DeclId} : (name, b) ∈ w.inlineRefs a ↔
      ∃ t, (name, t) ∈ w.heldTypes d ∧ t.unwrap.target? = some b := by
  simp only [Workspace.inlineRefs, hd, Workspace.heldTypes]
  cases hb : d.body with
  | struct fs =>
    rw [mem_filterMap_target_iff]
    constructor
    · rintro ⟨t, hmem, ht⟩
      obtain ⟨f, hf, heq⟩ := List.mem_map.mp hmem
      cases heq
      exact ⟨f.effectiveType, List.mem_map.mpr ⟨f, hf, rfl⟩, by simpa using ht⟩
    · rintro ⟨t, hmem, ht⟩
      obtain ⟨f, hf, heq⟩ := List.mem_map.mp hmem
      cases heq
      exact ⟨f.type, List.mem_map.mpr ⟨f, hf, rfl⟩, by simpa using ht⟩
  | union vs tag payload =>
    rw [mem_filterMap_target_iff, Decl.members, hb]
    constructor
    · rintro ⟨t, hmem, ht⟩
      obtain ⟨v, hv, heq⟩ := List.mem_map.mp hmem
      cases heq
      -- a void variant has no payload that could be a reference
      have hvoid : v.isVoid = false := by
        rw [Variant.isVoid, beq_eq_false_iff_ne]
        intro h
        rw [h] at ht
        cases ht
      exact ⟨_, List.mem_map.mpr ⟨v, List.mem_filter.mpr ⟨hv, by simp [hvoid]⟩, rfl⟩, ht⟩
    · rintro ⟨t, hmem, ht⟩
      obtain ⟨v, hv, heq⟩ := List.mem_map.mp hmem
      cases heq
      exact ⟨_, List.mem_map.mpr ⟨v, (List.mem_filter.mp hv).1, rfl⟩, ht⟩
  | newtype t => rw [mem_filterMap_target_iff, Decl.members, hb]
  | virtual fs => simp
  | consts t cs => simp [Decl.members, hb]
  | unknown n => simp [Decl.members, hb]

/-! ## Circles -/

section Circles

variable {w : Workspace} {ids : List Nat} (hp : Passes w ids)

include hp in
/-- **What a declaration embeds** is a declaration of the graph, in its module
or in one that is imported. -/
theorem of_heldTypes (hbases : BasesLinked w) {a : DeclId} {m : LinkedModule} {d : Decl}
    (hd : (graph w ids).Declares a m d) {x : Text × TypeExpr}
    (hx : x ∈ (graph w ids).workspace.heldTypes d) {b : DeclId}
    (hb : x.2.unwrap.target? = some b) :
    (∃ m e, (graph w ids).Declares b m e) ∧
      (b.module = a.module ∨ ImportsModule w ids a.module b.module) := by
  obtain ⟨m₀, d₀, hm, hd₀, rfl⟩ := exists_of_declares hp hd
  have hmem : d₀ ∈ m₀.decls := List.mem_of_getElem? ((hm.decl? a rfl).symm.trans hd₀)
  have hnode := TypeExpr.unwrap_mem_nodes hb
  rcases mem_heldTypes_linkDecl hx with ⟨f, hf, heq⟩ | ⟨y, hy, heq, -⟩
  · -- a field may be taken over from a virtual struct of the module
    obtain ⟨e, he, f₀, hf₀, htype⟩ := exists_field_of_mem_allFields hp hm hbases hmem hf
    rw [heq] at hnode hb
    have hpf := mem_nodes_of_effectiveType hnode (TypeExpr.kind?_of_target? hb)
    rw [htype] at hpf
    exact of_mem_nodes hp hm he (Decl.mem_members_of_mem_fields hf₀) hpf hb
  · rw [heq] at hnode hb
    exact of_mem_nodes hp hm hmem hy hnode hb

include hp in
/-- **Embedding goes down the imports.** -/
theorem descends_embeds (hbases : BasesLinked w) : Descends w ids (graph w ids).Embeds := by
  rintro a b ⟨m, d, hd, x, hx, hb⟩
  exact (of_heldTypes hp hbases hd hx hb).2

include hp in
/-- **The steps of the analysis of a module** are embeddings that stay in it. -/
theorem step_inlineGraph_iff (hbases : BasesLinked w) {i : Nat} {m : LinkedModule}
    (hi : ∀ a : DeclId, a.module = i → (graph w ids).moduleOf? a = some m) {a b : DeclId}
    (ha : a.module = i) : ((graph w ids).workspace.inlineGraph i).Step a b ↔
      (graph w ids).Embeds a b ∧ b.module = i := by
  constructor
  · rintro ⟨hedge, hnode⟩
    have hb := (mem_declIds_iff.mp hnode).1
    obtain ⟨⟨name, b'⟩, hmem, rfl⟩ := List.mem_map.mp hedge
    cases hd : (graph w ids).workspace.decl? a with
    | none => simp [Workspace.inlineRefs, hd] at hmem
    | some d =>
      obtain ⟨t, ht, htarget⟩ := (mem_inlineRefs_iff hd).mp hmem
      exact ⟨⟨m, d, ⟨hi a ha, hd⟩, _, ht, htarget⟩, hb⟩
  · rintro ⟨⟨n, d, hd, x, hx, htarget⟩, hb⟩
    obtain ⟨⟨m', e, he⟩, -⟩ := of_heldTypes hp hbases hd hx htarget
    refine ⟨List.mem_map.mpr ⟨(x.1, b), ?_, rfl⟩, mem_declIds_iff.mpr ⟨hb, e, he.2⟩⟩
    exact (mem_inlineRefs_iff hd.2).mpr ⟨x.2, hx, htarget⟩

/-- **What the analysis marks**: a member that leads to a declaration on a
circle that its holder is on. -/
theorem isIndirect_analyze_iff {u : Workspace} {a : DeclId} {deps : List Nat} {name : Text} :
    (analyze u a.module deps).isIndirect a name = true ↔ ∃ b, (name, b) ∈ u.inlineRefs a ∧
      ∃ c ∈ (u.inlineGraph a.module).components.filter (u.inlineGraph a.module).isCyclic,
        a ∈ c ∧ b ∈ c := by
  rw [LinkedModule.isIndirect, List.contains_iff_mem]
  simp only [analyze, List.mem_flatMap, List.mem_map, List.mem_filter, List.contains_iff_mem,
    Prod.mk.injEq, Prod.exists]
  constructor
  · rintro ⟨c, hc, u, hu, n, b, ⟨hmem, hb⟩, rfl, rfl⟩
    exact ⟨b, hmem, c, hc, hu, hb⟩
  · rintro ⟨b, hmem, c, hc, hu, hb⟩
    exact ⟨c, hc, a, hu, name, b, ⟨hmem, hb⟩, rfl, rfl⟩

/-- **Which members are marked**: those that embed a declaration from which
a chain of embeddings leads back to the holder, in the whole graph. -/
theorem isIndirect_iff {g : ModuleGraph} (hbases : BasesLinked w)
    (hg : (resolve w ids).2 = .ok g) {a : DeclId} {m : LinkedModule} {d : Decl}
    (hd : g.Declares a m d) {name : Text} : m.isIndirect a name = true ↔
      ∃ t b, (name, t) ∈ g.workspace.heldTypes d ∧ t.unwrap.target? = some b ∧
        ReflTransGen g.Embeds b a := by
  obtain ⟨hp, rfl⟩ := passes_of_resolve hg
  let D := (linked w ids).inlineGraph a.module
  have hnd : D.nodes.Nodup := nodup_declIds
  have hnode : a ∈ D.nodes := mem_declIds_iff.mpr ⟨rfl, d, hd.2⟩
  have hac := (passes_iff.mp hp).1.imports_acyclic
  have hdown := descends_embeds hp hbases
  have hstep : ∀ ⦃u v : DeclId⦄, u.module = a.module →
      (D.Step u v ↔ (graph w ids).Embeds u v ∧ v.module = a.module) := fun u v hu =>
    step_inlineGraph_iff hp hbases (fun _ h => (ModuleGraph.moduleOf?_congr h).trans hd.1) hu
  rw [eq_analyze_of_moduleOf? hd.1, isIndirect_analyze_iff]
  constructor
  · rintro ⟨b, hmem, c, hcyc, ha, hb⟩
    obtain ⟨t, ht, htarget⟩ := (mem_inlineRefs_iff hd.2).mp hmem
    obtain ⟨r, -, -, hc⟩ := D.exists_of_mem_components (List.mem_filter.mp hcyc).1
    have hbnode : b ∈ D.nodes := ((hc b).mp hb).1
    have hmod : b.module = a.module := (mem_declIds_iff.mp hbnode).1
    have hs : D.Step a b := ⟨List.mem_map.mpr ⟨_, hmem, rfl⟩, hbnode⟩
    have hback := (D.exists_isCyclic_of_step_iff hnd hnode hs).mp ⟨c, hcyc, ha, hb⟩
    exact ⟨t, b, ht, htarget, (hdown.reflTransGen_iff hac hstep hmod rfl).mp hback⟩
  · rintro ⟨t, b, ht, htarget, hback⟩
    have hembeds : (graph w ids).Embeds a b := ⟨m, d, hd, _, ht, htarget⟩
    -- the chain comes back to the module, so it has not left it
    have hmod : b.module = a.module :=
      (hdown.within hac (.single hembeds) (hdown.reflTransGen hback)).2
    have hs : D.Step a b := (hstep rfl).mpr ⟨hembeds, hmod⟩
    exact ⟨b, (mem_inlineRefs_iff hd.2).mpr ⟨t, ht, htarget⟩,
      (D.exists_isCyclic_of_step_iff hnd hnode hs).mpr
        ((hdown.reflTransGen_iff hac hstep hmod rfl).mpr hback)⟩

end Circles

end WireModel
