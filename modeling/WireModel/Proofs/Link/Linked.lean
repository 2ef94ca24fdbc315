import WireModel.Proofs.Graph.Schedule
import WireModel.Proofs.Link.Accept

/-!
# Linked graphs — what readers and writers rely on

`ModuleGraph.Linked` collects what linking guarantees about the
declarations of a graph: names that stand once, keys that differ, and
references that lead to declarations of the graph that have values.
Every graph that linking gives has it (`linked_of_resolve`), if nothing
but linking writes the base of a declaration (`BasesLinked`), and
linking keeps that (`basesLinked_resolve`).
-/

namespace WireModel

open Relation Linking

/-- Nothing but linking writes a base: a declaration that extends nothing
has none. -/
def BasesLinked (w : Workspace) : Prop := ∀ m ∈ w, ∀ d ∈ m.decls, d.extend = [] → d.base = none

/-- The types that values of a declaration hold, by member. -/
def Workspace.heldTypes (w : Workspace) (d : Decl) : List (Text × TypeExpr) :=
  match d.body with
  | .struct _ => (w.allFields d).map fun f => (f.name, f.effectiveType)
  | .union vs _ _ => (vs.filter fun v => !v.isVoid).map fun v => (v.name, v.payload)
  | .newtype t => [([], t)]
  | _ => []

section HeldTypes

variable {w : Workspace} {d : Decl}

theorem mem_heldTypes_of_field {fs : List Field} (hb : d.body = .struct fs) {f : Field}
    (hf : f ∈ w.allFields d) : (f.name, f.effectiveType) ∈ w.heldTypes d := by
  rw [Workspace.heldTypes, hb]
  exact List.mem_map_of_mem hf

theorem mem_heldTypes_of_variant {v : Variant} (hv : v ∈ d.variants) (hvoid : v.isVoid = false) :
    (v.name, v.payload) ∈ w.heldTypes d := by
  rw [Decl.variants] at hv
  rw [Workspace.heldTypes]
  cases hb : d.body with
  | union vs tag payload =>
    rw [hb] at hv
    exact List.mem_map_of_mem (List.mem_filter.mpr ⟨hv, by simp [hvoid]⟩)
  | _ => simp [hb] at hv

theorem mem_heldTypes_of_newtype {t : TypeExpr} (hb : d.body = .newtype t) :
    ([], t) ∈ w.heldTypes d := by
  rw [Workspace.heldTypes, hb]
  exact List.mem_singleton.mpr rfl

end HeldTypes

namespace ModuleGraph

/-- A declaration of a graph, with the linked module that owns it. -/
def Declares (g : ModuleGraph) (id : DeclId) (m : LinkedModule) (d : Decl) : Prop :=
  g.moduleOf? id = some m ∧ g.workspace.decl? id = some d

section Declares

variable {g : ModuleGraph} {id : DeclId} {m : LinkedModule} {d : Decl}

theorem Declares.mem_modules (h : g.Declares id m d) : m ∈ g.modules :=
  List.mem_of_find?_eq_some h.1

theorem Declares.id_module (h : g.Declares id m d) : m.id = id.module := by
  simpa using List.find?_some h.1

theorem Declares.unique {m' : LinkedModule} {d' : Decl} (h : g.Declares id m d)
    (h' : g.Declares id m' d') : m' = m ∧ d' = d :=
  ⟨Option.some.inj (h'.1.symm.trans h.1), Option.some.inj (h'.2.symm.trans h.2)⟩

end Declares

/-- A type is in order: it is well formed, and its references lead to
declarations of the graph that have values. -/
structure TypeOk (g : ModuleGraph) (t : TypeExpr) : Prop where
  valid : t.defect? = none
  bound : ∀ p ∈ t.nodes, p.kind? = some .ref → ∃ id m d, p.target? = some id ∧
    g.Declares id m d ∧ d.isInstantiable = true

/-- **What linking guarantees** about the declarations of a graph. -/
structure Linked (g : ModuleGraph) : Prop where
  /-- The fields of a struct, taken over ones included, have distinct names. -/
  fields_nodup : ∀ {id m d}, g.Declares id m d → ((g.workspace.allFields d).map (·.name)).Nodup
  /-- The variants of a union have distinct names. -/
  variants_nodup : ∀ {id m d}, g.Declares id m d → (d.variants.map (·.name)).Nodup
  /-- The two keys of a union differ. -/
  keys_ne : ∀ {id m d}, g.Declares id m d → d.kind = .union → d.tagKey ≠ d.payloadKey
  /-- The types that values hold are in order. -/
  typeOk : ∀ {id m d}, g.Declares id m d → ∀ x ∈ g.workspace.heldTypes d, g.TypeOk x.2

/-- The members of a declaration have distinct names. -/
theorem nodup_heldTypes {g : ModuleGraph} {id : DeclId} {m : LinkedModule}
    {d : Decl} (hl : g.Linked) (hd : g.Declares id m d) :
    ((g.workspace.heldTypes d).map (·.1)).Nodup := by
  rw [Workspace.heldTypes]
  cases hb : d.body with
  | struct fs =>
    rw [List.map_map]
    exact hl.fields_nodup hd
  | union vs tag payload =>
    have hvariants : (vs.map (·.name)).Nodup := by
      have h := hl.variants_nodup hd
      rwa [Decl.variants, hb] at h
    rw [List.map_map]
    exact hvariants.sublist (List.filter_sublist.map _)
  | newtype t => simp
  | _ => simp

/-- A member's name stands for one type. -/
theorem eq_of_mem_heldTypes {g : ModuleGraph} {id : DeclId} {m : LinkedModule}
    {d : Decl} (hl : g.Linked) (hd : g.Declares id m d) {name : Text}
    {t t' : TypeExpr} (ht : (name, t) ∈ g.workspace.heldTypes d)
    (ht' : (name, t') ∈ g.workspace.heldTypes d) : t = t' :=
  congrArg Prod.snd (List.inj_on_of_nodup_map (nodup_heldTypes hl hd) ht ht' rfl)

/-- The items of a composite type that is in order are. -/
theorem TypeOk.elem {g : ModuleGraph} {k : Kind} {width : Int} {r : Option Ref} {elem : TypeExpr}
    (h : g.TypeOk (.node k width r elem)) (hk : k = .list ∨ k = .map ∨ k = .optional) :
    g.TypeOk elem where
  valid := (TypeExpr.defect?_eq_none_iff.mp h.valid).2.2.2.1 hk
  bound := fun p hp => h.bound p (List.mem_cons_of_mem _ hp)

/-- A reference that is in order is bound. -/
theorem TypeOk.exists_target {g : ModuleGraph} {width : Int} {r : Option Ref} {elem : TypeExpr}
    (h : g.TypeOk (.node .ref width r elem)) : ∃ s id m d, r = some s ∧ s.target = some id ∧
      g.Declares id m d ∧ d.isInstantiable = true := by
  obtain ⟨id, m, d, ht, hd, hinst⟩ := h.bound _ List.mem_cons_self rfl
  cases r with
  | none => cases ht
  | some s => exact ⟨s, id, m, d, rfl, ht, hd, hinst⟩

/-- A type that is in order, node by node. Nothing is asked of what hangs
below a scalar or a reference. -/
inductive InOrder (g : ModuleGraph) : TypeExpr → Prop
  | scalar {k : Kind} {width : Int} {r : Option Ref} {elem : TypeExpr} (hk : k.isScalar = true) :
    InOrder g (.node k width r elem)
  | list {width : Int} {r : Option Ref} {elem : TypeExpr} (h : InOrder g elem) :
    InOrder g (.node .list width r elem)
  | map {width : Int} {r : Option Ref} {elem : TypeExpr} (h : InOrder g elem) :
    InOrder g (.node .map width r elem)
  /-- An optional does not hold another one. -/
  | optional {width : Int} {r : Option Ref} {elem : TypeExpr} (h : InOrder g elem)
    (hopt : elem.isOptional = false) : InOrder g (.node .optional width r elem)
  /-- A reference leads to a declaration that has values. -/
  | ref {width : Int} {s : Ref} {elem : TypeExpr} {id : DeclId} {m : LinkedModule} {d : Decl}
    (ht : s.target = some id) (hd : g.Declares id m d) (hinst : d.isInstantiable = true) :
    InOrder g (.node .ref width (some s) elem)

theorem TypeOk.inOrder {g : ModuleGraph} {t : TypeExpr} (h : g.TypeOk t) : g.InOrder t := by
  induction t with
  | missing => exact absurd h.valid (by simp [TypeExpr.defect?])
  | node k width r elem ih =>
    obtain ⟨hvalid, -, hopt, -⟩ := TypeExpr.defect?_eq_none_iff.mp h.valid
    cases k with
    | invalid => cases hvalid
    | unknown n => cases hvalid
    | list => exact .list (ih (h.elem (by simp)))
    | map => exact .map (ih (h.elem (by simp)))
    | optional => exact .optional (ih (h.elem (by simp))) (hopt rfl)
    | ref =>
      obtain ⟨s, id, m, d, rfl, ht, hd, hinst⟩ := h.exists_target
      exact .ref ht hd hinst
    | _ => exact .scalar rfl

end ModuleGraph

variable {w : Workspace} {ids : List Nat}

/-! ## All modules are placed -/

section Placed

variable (hp : Passes w ids)

include hp in
/-- The modules a linked module depends on are those it imports. -/
theorem mem_dependencies_iff {a b : Nat} (ha : a ∈ order w ids) :
    b ∈ dependencies (linked w ids) a ↔ ImportsModule w ids a b := by
  obtain ⟨m, hm⟩ := (mem_order_iff hp.registered).mp ha
  have hmem : b ∈ dependencies (linked w ids) a ↔
      b ∈ (importGraph (withImports w ids) (order w ids)).edges a := by
    simp only [dependencies, importGraph, List.mem_mergeSort, List.mem_eraseDups,
      getElem?_linked hp.registered hp.references hm, getElem?_withImports hp.registered hm]
    rfl
  rw [hmem, mem_importGraph_edges_iff hp.registered hp.imports ha]

include hp in
/-- **Every given module is placed in the graph**, and only those. -/
theorem schedule_perm_order :
    (schedule (dependencies (linked w ids)) [] (order w ids)).Perm (order w ids) := by
  have hwf := (passes_iff.mp hp).1
  refine schedule_perm ?_ ?_
  · intro a ha b hb
    have himp := (mem_dependencies_iff hp ha).mp hb
    exact Or.inr (mem_order_of_imports hp.registered himp).2
  · intro a ha hc
    refine hwf.imports_acyclic a ?_
    have hsteps : ∀ {b}, TransGen (fun a b => b ∈ dependencies (linked w ids) a) a b →
        TransGen (ImportsModule w ids) a b ∧ b ∈ order w ids := by
      intro b hb
      induction hb with
      | single hs =>
        have himp := (mem_dependencies_iff hp ha).mp hs
        exact ⟨TransGen.single himp, (mem_order_of_imports hp.registered himp).2⟩
      | tail _ hs ih =>
        have himp := (mem_dependencies_iff hp ih.2).mp hs
        exact ⟨ih.1.tail himp, (mem_order_of_imports hp.registered himp).2⟩
    exact (hsteps hc).1

include hp in
/-- **A module of the graph is a given one**, and every given one is
there. -/
theorem moduleOf?_graph_iff (id : DeclId) :
    (∃ m, (graph w ids).moduleOf? id = some m) ↔ ∃ m, Given w ids id.module m := by
  rw [← mem_order_iff hp.registered, ← (schedule_perm_order hp).mem_iff, ← Option.isSome_iff_exists,
    ModuleGraph.moduleOf?, List.find?_isSome]
  simp [graph, analyze]

omit hp in
/-- The module that owns a declaration is the analysis of its module. -/
theorem eq_analyze_of_moduleOf? {id : DeclId} {m : LinkedModule}
    (h : (graph w ids).moduleOf? id = some m) :
    m = analyze (linked w ids) id.module (dependencies (linked w ids) id.module) := by
  have hid : m.id = id.module := by simpa using List.find?_some h
  obtain ⟨i, -, rfl⟩ := List.mem_map.mp (List.mem_of_find?_eq_some h)
  rw [← hid]
  rfl

include hp in
/-- So what the workspace of the graph has in a given module is declared. -/
theorem declares_analyze {id : DeclId} {m₀ : Module} {d : Decl} (hm : Given w ids id.module m₀)
    (hd : (graph w ids).workspace.decl? id = some d) :
    (graph w ids).Declares id
      (analyze (linked w ids) id.module (dependencies (linked w ids) id.module)) d := by
  obtain ⟨m, hmod⟩ := (moduleOf?_graph_iff hp id).mpr ⟨m₀, hm⟩
  obtain rfl := eq_analyze_of_moduleOf? hmod
  exact ⟨hmod, hd⟩

include hp in
theorem exists_declares {id : DeclId} {m₀ : Module} {d : Decl} (hm : Given w ids id.module m₀)
    (hd : (graph w ids).workspace.decl? id = some d) : ∃ m, (graph w ids).Declares id m d :=
  ⟨_, declares_analyze hp hm hd⟩

include hp in
/-- A declaration is known from the workspace as it evaluates. -/
theorem exists_declares_of_bound {id : DeclId} {m₀ : Module} {d : Decl}
    (hm : Given w ids id.module m₀) (hd : (bound w ids).1.decl? id = some d) :
    ∃ m, (graph w ids).Declares id m d :=
  exists_declares hp hm (by rw [workspace_graph]; exact hd)

/-! ## Linked declarations -/

include hp in
/-- **A declaration of the graph** is one of a given module, with its
references bound. -/
theorem exists_of_declares {id : DeclId} {m : LinkedModule} {d : Decl}
    (h : (graph w ids).Declares id m d) :
    ∃ m₀ d₀, Given w ids id.module m₀ ∧ w.decl? id = some d₀ ∧
      d = linkDecl (withImports w ids) (m₀.bindImports (paths w ids)) id.module d₀ := by
  obtain ⟨m₀, hm⟩ := (moduleOf?_graph_iff hp id).mp ⟨m, h.1⟩
  have hd := (decl?_linked hp.registered hp.references id hm).symm.trans h.2
  obtain ⟨d₀, hd₀, rfl⟩ := Option.map_eq_some_iff.mp hd
  exact ⟨m₀, d₀, hm, hd₀, rfl⟩

include hp in
/-- And every declaration of a given module is in the graph. -/
theorem declares_of_given {id : DeclId} {m₀ : Module} {d₀ : Decl} (hm : Given w ids id.module m₀)
    (hd : w.decl? id = some d₀) : ∃ m, (graph w ids).Declares id m
      (linkDecl (withImports w ids) (m₀.bindImports (paths w ids)) id.module d₀) := by
  have hlink := decl?_linked hp.registered hp.references id hm
  rw [hd, Option.map_some] at hlink
  exact exists_declares hp hm hlink

include hp in
/-- The declarations of the graph have names. -/
theorem name_ne_nil_of_declares {id : DeclId} {m : LinkedModule} {d : Decl}
    (h : (graph w ids).Declares id m d) : d.name ≠ [] := by
  obtain ⟨m₀, d₀, hm, hd₀, rfl⟩ := exists_of_declares hp h
  rw [hm.decl? id rfl] at hd₀
  have hvalid := (passes_iff.mp hp).1.valid id.module m₀ hm
  have hname : d₀.name ≠ [] := Module.name_ne_nil_of_valid hvalid (List.mem_of_getElem? hd₀)
  exact hname

end Placed

section LinkDecl

variable {u : Workspace} {m : Module} {self : Nat} {d : Decl}

theorem fields_linkDecl : (linkDecl u m self d).fields =
    d.fields.map fun f => { f with type := f.type.bindRefs (u.target? m self) } :=
  Decl.fields_mapTypes

theorem names_fields_linkDecl :
    (linkDecl u m self d).fields.map (·.name) = d.fields.map (·.name) := by
  rw [fields_linkDecl, List.map_map]
  rfl

theorem variants_linkDecl : (linkDecl u m self d).variants =
    d.variants.map fun v => { v with payload := v.payload.bindRefs (u.target? m self) } := by
  simp only [linkDecl, Decl.mapTypes, Decl.variants]
  cases d.body <;> rfl

theorem keys_linkDecl : (linkDecl u m self d).tagKey = d.tagKey ∧
    (linkDecl u m self d).payloadKey = d.payloadKey := by
  simp only [linkDecl, Decl.mapTypes, Decl.tagKey, Decl.payloadKey]
  cases d.body <;> exact ⟨rfl, rfl⟩

/-- The types that values hold are those of fields, which may be taken
over, and of members. -/
theorem mem_heldTypes_linkDecl {v : Workspace} {x : Text × TypeExpr}
    (h : x ∈ v.heldTypes (linkDecl u m self d)) :
    (∃ f ∈ v.allFields (linkDecl u m self d), x.2 = f.effectiveType) ∨
      ∃ y ∈ d.members, x.2 = y.2.bindRefs (u.target? m self) ∧
        (d.kind = .union → x.2 ≠ .missing) := by
  have hbody : (linkDecl u m self d).body =
      (d.mapTypes (·.bindRefs (u.target? m self))).body := rfl
  rw [Workspace.heldTypes, hbody, Decl.mapTypes] at h
  rw [Decl.members]
  cases hb : d.body with
  | struct fs =>
    rw [hb] at h
    obtain ⟨f, hf, rfl⟩ := List.mem_map.mp h
    exact Or.inl ⟨f, hf, rfl⟩
  | union vs tag payload =>
    rw [hb] at h
    obtain ⟨v, hv, rfl⟩ := List.mem_map.mp h
    obtain ⟨v₀, hv₀, rfl⟩ := List.mem_map.mp (List.mem_filter.mp hv).1
    refine Or.inr ⟨_, List.mem_map_of_mem hv₀, rfl, fun _ => ?_⟩
    simpa [Variant.isVoid] using (List.mem_filter.mp hv).2
  | newtype t =>
    rw [hb] at h
    obtain rfl := List.mem_singleton.mp h
    exact Or.inr ⟨_, List.mem_singleton.mpr rfl, rfl, by simp [Decl.kind, hb, Body.kind]⟩
  | virtual fs => simp [hb] at h
  | consts t cs => simp [hb] at h
  | unknown n => simp [hb] at h

end LinkDecl

/-- **A reference in a bound type** is one of the type's, bound. -/
theorem eq_bound_of_mem_nodes {find : Ref → Option DeclId} {t elem : TypeExpr} {width : Int}
    {s : Option Ref} (hname : none ∉ t.refs)
    (hp : .node .ref width s elem ∈ (t.bindRefs find).nodes) :
    ∃ r, some r ∈ t.refs ∧ s = some { r with target := find r } := by
  induction t with
  | missing => cases hp
  | node k width' r elem' ih =>
    by_cases hkr : k = .ref
    · subst hkr
      rw [TypeExpr.refs, List.mem_cons, not_or] at hname
      cases r with
      | none => exact absurd rfl hname.1
      | some r =>
        rw [TypeExpr.bindRefs, TypeExpr.nodes, List.mem_cons] at hp
        rw [TypeExpr.refs]
        rcases hp with heq | hp
        · cases heq
          exact ⟨r, by simp, rfl⟩
        · obtain ⟨r', hr', ht⟩ := ih hname.2 hp
          exact ⟨r', by simp [hr'], ht⟩
    · rw [TypeExpr.refs_node_of_ne hkr] at hname ⊢
      rw [TypeExpr.bindRefs_node_of_ne hkr, TypeExpr.nodes, List.mem_cons] at hp
      rcases hp with heq | hp
      · cases heq
        exact absurd rfl hkr
      · exact ih hname hp

/-- So what it leads to is what was found for it. -/
theorem exists_ref_of_mem_nodes {find : Ref → Option DeclId} {t p : TypeExpr}
    (hname : none ∉ t.refs) (hp : p ∈ (t.bindRefs find).nodes) (hk : p.kind? = some .ref) :
    ∃ r, some r ∈ t.refs ∧ p.target? = find r := by
  cases p with
  | missing => cases hk
  | node k width s elem =>
    obtain rfl : k = .ref := Option.some.inj hk
    obtain ⟨r, hr, rfl⟩ := eq_bound_of_mem_nodes hname hp
    exact ⟨r, hr, rfl⟩

@[simp] theorem isOptional_bindRefs {find : Ref → Option DeclId} {t : TypeExpr} :
    (t.bindRefs find).isOptional = t.isOptional := by
  cases t with
  | missing => rfl
  | node k width r elem =>
    by_cases hk : k = .ref
    · subst hk
      cases r <;> rfl
    · rw [TypeExpr.bindRefs_node_of_ne hk]
      rfl

theorem TypeExpr.unwrap_of_not_optional {t : TypeExpr} (h : t.isOptional = false) :
    t.unwrap = t := by
  cases t with
  | missing => rfl
  | node k width r elem =>
    cases k with
    | optional => cases h
    | _ => rfl

/-- A bound type is as well formed as it was. -/
theorem defect?_bindRefs {find : Ref → Option DeclId} {t : TypeExpr} (h : t.defect? = none) :
    (t.bindRefs find).defect? = none := by
  induction t with
  | missing => exact h
  | node k width r elem ih =>
    by_cases hk : k = .ref
    · subst hk
      cases r with
      | none => exact h
      | some r => exact h
    · rw [TypeExpr.bindRefs_node_of_ne hk, TypeExpr.defect?_eq_none_iff, isOptional_bindRefs]
      obtain ⟨hvalid, hint, hopt, helem, href⟩ := TypeExpr.defect?_eq_none_iff.mp h
      exact ⟨hvalid, hint, hopt, fun hc => ih (helem hc), href⟩

/-- The type of a field's value is as well formed as that of the field. -/
theorem defect?_effectiveType {f : Field} (h : f.type.defect? = none) :
    f.effectiveType.defect? = none := by
  rw [Field.effectiveType]
  split
  · exact h
  · rename_i hreq
    have hopt : f.type.isOptional = false := by
      simp only [Bool.or_eq_true, not_or, Bool.not_eq_true] at hreq
      exact hreq.2
    rw [TypeExpr.optional, TypeExpr.defect?_eq_none_iff]
    exact ⟨rfl, by simp, fun _ => hopt, fun _ => h, by simp⟩

/-- The references of a field's value are those of its type. -/
theorem mem_nodes_of_effectiveType {f : Field} {p : TypeExpr} (hp : p ∈ f.effectiveType.nodes)
    (hk : p.kind? = some .ref) : p ∈ f.type.nodes := by
  rw [Field.effectiveType] at hp
  split at hp
  · exact hp
  · rw [TypeExpr.optional, TypeExpr.nodes, List.mem_cons] at hp
    rcases hp with rfl | hp
    · cases hk
    · exact hp

section Guarantees

variable (hp : Passes w ids) {i : Nat} {m : Module} (hm : Given w ids i m)

include hp hm in
/-- **A reference of a linked member** leads to a declaration of the graph
that has values. -/
theorem exists_declares_of_ref {d : Decl} (hd : d ∈ m.decls) {x : Text × TypeExpr}
    (hx : x ∈ d.members) {p : TypeExpr}
    (hmem : p ∈ (x.2.bindRefs
      ((withImports w ids).target? (m.bindImports (paths w ids)) i)).nodes)
    (hk : p.kind? = some .ref) : ∃ id' m' d', p.target? = some id' ∧
      (graph w ids).Declares id' m' d' ∧ d'.isInstantiable = true := by
  obtain ⟨hwf, hnamed⟩ := passes_iff.mp hp
  obtain ⟨r, hr, htarget⟩ := exists_ref_of_mem_nodes (hnamed i m hm d hd x hx) hmem hk
  obtain ⟨id, e, hnames, hkind⟩ := hwf.references i m hm d hd x hx r hr
  have hinst := Decl.isInstantiable_iff.mpr hkind
  rw [(target?_eq_some_iff hp.registered hp.imports hm).mpr ⟨e, hnames, hinst⟩] at htarget
  obtain ⟨n, hn⟩ := given_of_looksInto hm hnames.1
  obtain ⟨m', hdecl⟩ := declares_of_given hp hn hnames.2.1
  refine ⟨id, m', _, htarget, hdecl, ?_⟩
  rw [Decl.isInstantiable_iff, kind_linkDecl]
  exact hkind

include hp hm in
/-- **The base of a linked struct** is the virtual struct of its module
that it extends, whose fields come before its own and share no name with
them. -/
theorem base_linkDecl {d : Decl} (hd : d ∈ m.decls) (hext : d.extend ≠ []) :
    let link := linkDecl (withImports w ids) (m.bindImports (paths w ids)) i
    ∃ k b, m.decls[k]? = some b ∧ b.name = d.extend ∧ b.kind = .virtual ∧
      (∀ f ∈ b.fields, ∀ g ∈ d.fields, f.name ≠ g.name) ∧ (link d).base = some ⟨i, k⟩ ∧
      (linked w ids).allFields (link d) = (link b).fields ++ (link d).fields := by
  intro link
  have hwf := (passes_iff.mp hp).1
  obtain ⟨b, hb, hname, hv, hdisj⟩ := hwf.bases i m hm d hd hext
  obtain ⟨k, hk⟩ := List.getElem?_of_mem hb
  have hok := (baseOk_iff hp.registered hm hd).mpr (hwf.bases i m hm d hd)
  have hbase : (link d).base = if d.extend = [] then d.base else
      (m.find? d.extend).map fun k => ⟨i, k⟩ := bindBase_eq hok
  rw [if_neg hext, ← hname, Module.find?_of_valid (hwf.valid i m hm) hk, Option.map_some] at hbase
  have hdecl : (linked w ids).decl? ⟨i, k⟩ = some (link b) := by
    have hgiven : w.decl? ⟨i, k⟩ = some b := (hm.decl? ⟨i, k⟩ rfl).trans hk
    rw [decl?_linked hp.registered hp.references ⟨i, k⟩ hm, hgiven]
    rfl
  refine ⟨k, b, hk, hname, hv, hdisj, hbase, ?_⟩
  rw [Workspace.allFields, hbase, Option.bind_some, hdecl]

include hp hm in
/-- **The fields of a linked struct** are its own, after those of a virtual
struct of its module that shares no name with it. -/
theorem allFields_linkDecl (hbases : BasesLinked w) {d : Decl} (hd : d ∈ m.decls) :
    let link := linkDecl (withImports w ids) (m.bindImports (paths w ids)) i
    (linked w ids).allFields (link d) = (link d).fields ∨
      ∃ b ∈ m.decls, (∀ f ∈ b.fields, ∀ g ∈ d.fields, f.name ≠ g.name) ∧
        (linked w ids).allFields (link d) = (link b).fields ++ (link d).fields := by
  intro link
  by_cases hext : d.extend = []
  · refine Or.inl ?_
    have hbase : (link d).base = none := by
      have hlink : (link d).base = d.base := by simp [link, linkDecl, bindBase, bindBaseBy, hext]
      rw [hlink, hbases m (List.mem_of_getElem? hm.2) d hd hext]
    rw [Workspace.allFields, hbase]
    rfl
  · obtain ⟨k, b, hk, -, -, hdisj, -, hall⟩ := base_linkDecl hp hm hd hext
    exact Or.inr ⟨b, List.mem_of_getElem? hk, hdisj, hall⟩

include hp hm in
/-- Fields of declarations that share no name have distinct names. -/
theorem nodup_fields_append {b d : Decl} (hb : b ∈ m.decls) (hd : d ∈ m.decls)
    (hdisj : ∀ f ∈ b.fields, ∀ g ∈ d.fields, f.name ≠ g.name) :
    let link := linkDecl (withImports w ids) (m.bindImports (paths w ids)) i
    (((link b).fields ++ (link d).fields).map (·.name)).Nodup := by
  intro link
  have hvalid := (passes_iff.mp hp).1.valid i m hm
  rw [List.map_append, names_fields_linkDecl, names_fields_linkDecl, List.nodup_append]
  refine ⟨Decl.nodup_fields_of_valid (Module.decl_errors_of_valid hvalid hb),
    Decl.nodup_fields_of_valid (Module.decl_errors_of_valid hvalid hd), fun x hx y hy => ?_⟩
  obtain ⟨f, hf, rfl⟩ := List.mem_map.mp hx
  obtain ⟨f', hf', rfl⟩ := List.mem_map.mp hy
  exact hdisj f hf f' hf'

include hp hm in
/-- Each of them is a field of a declaration of the module, with its
references bound. -/
theorem exists_field_of_mem_allFields (hbases : BasesLinked w) {d : Decl} (hd : d ∈ m.decls)
    {f : Field} (hf : f ∈ (linked w ids).allFields
      (linkDecl (withImports w ids) (m.bindImports (paths w ids)) i d)) :
    ∃ e ∈ m.decls, ∃ f₀ ∈ e.fields, f.type =
      f₀.type.bindRefs ((withImports w ids).target? (m.bindImports (paths w ids)) i) := by
  have hown : ∀ {e}, e ∈ m.decls →
      f ∈ (linkDecl (withImports w ids) (m.bindImports (paths w ids)) i e).fields →
      ∃ e ∈ m.decls, ∃ f₀ ∈ e.fields, f.type =
        f₀.type.bindRefs ((withImports w ids).target? (m.bindImports (paths w ids)) i) := by
    intro e he hf
    rw [fields_linkDecl] at hf
    obtain ⟨f₀, hf₀, rfl⟩ := List.mem_map.mp hf
    exact ⟨e, he, f₀, hf₀, rfl⟩
  rcases allFields_linkDecl hp hm hbases hd with hall | ⟨b, hb, -, hall⟩
  · rw [hall] at hf
    exact hown hd hf
  · rw [hall, List.mem_append] at hf
    rcases hf with hf | hf
    · exact hown hb hf
    · exact hown hd hf

include hp hm in
/-- The fields of a linked struct have distinct names. -/
theorem nodup_allFields_linkDecl (hbases : BasesLinked w) {d : Decl} (hd : d ∈ m.decls) :
    (((linked w ids).allFields
      (linkDecl (withImports w ids) (m.bindImports (paths w ids)) i d)).map (·.name)).Nodup := by
  have hvalid := (passes_iff.mp hp).1.valid i m hm
  rcases allFields_linkDecl hp hm hbases hd with hall | ⟨b, hb, hdisj, hall⟩
  · rw [hall, names_fields_linkDecl]
    exact Decl.nodup_fields_of_valid (Module.decl_errors_of_valid hvalid hd)
  · rw [hall]
    exact nodup_fields_append hp hm hb hd hdisj

include hp hm in
/-- **The fields of a linked declaration**, those taken over included, have
types in order. -/
theorem typeOk_effectiveType (hbases : BasesLinked w) {d : Decl} (hd : d ∈ m.decls) {f : Field}
    (hf : f ∈ (linked w ids).allFields
      (linkDecl (withImports w ids) (m.bindImports (paths w ids)) i d)) :
    (graph w ids).TypeOk f.effectiveType := by
  have hvalid := (passes_iff.mp hp).1.valid i m hm
  obtain ⟨e, he, f₀, hf₀, htype⟩ := exists_field_of_mem_allFields hp hm hbases hd hf
  have hmem := Decl.mem_members_of_mem_fields hf₀
  refine ⟨defect?_effectiveType ?_, fun p hpf hk => ?_⟩
  · rw [htype]
    refine defect?_bindRefs ?_
    rcases Decl.defect?_of_valid (Module.decl_errors_of_valid hvalid he) hmem with hok | ⟨hk, -⟩
    · exact hok
    · rw [Decl.fields_eq_nil_of_union hk] at hf₀
      cases hf₀
  · have hpf := mem_nodes_of_effectiveType hpf hk
    rw [htype] at hpf
    exact exists_declares_of_ref hp hm he hmem hpf hk

include hp hm in
/-- The types that values of a linked declaration hold are in order. -/
theorem typeOk_heldTypes_linkDecl (hbases : BasesLinked w) {d : Decl} (hd : d ∈ m.decls)
    {x : Text × TypeExpr} (hx : x ∈ (linked w ids).heldTypes
      (linkDecl (withImports w ids) (m.bindImports (paths w ids)) i d)) :
    (graph w ids).TypeOk x.2 := by
  have hvalid := (passes_iff.mp hp).1.valid i m hm
  rcases mem_heldTypes_linkDecl hx with ⟨f, hf, heq⟩ | ⟨y, hy, heq, hne⟩
  · rw [heq]
    exact typeOk_effectiveType hp hm hbases hd hf
  · rcases Decl.defect?_of_valid (Module.decl_errors_of_valid hvalid hd) hy with hok | ⟨hk, hy'⟩
    · rw [heq]
      exact ⟨defect?_bindRefs hok, fun p hpy => exists_declares_of_ref hp hm hd hy hpy⟩
    · exact absurd (by rw [heq, hy']; rfl) (hne hk)

end Guarantees

/-- **Every graph that linking gives is linked.** -/
theorem linked_of_resolve {g : ModuleGraph} (hbases : BasesLinked w)
    (h : (resolve w ids).2 = .ok g) : g.Linked := by
  obtain ⟨hp, rfl⟩ := passes_of_resolve h
  -- a declaration of the graph, as it was given
  have hgiven : ∀ {id lm d}, (graph w ids).Declares id lm d → ∃ m d₀,
      Given w ids id.module m ∧ d₀ ∈ m.decls ∧ d₀.errors m.name = [] ∧
        d = linkDecl (withImports w ids) (m.bindImports (paths w ids)) id.module d₀ := by
    intro id lm d hd
    obtain ⟨m, d₀, hm, hd₀, rfl⟩ := exists_of_declares hp hd
    rw [hm.decl? id rfl] at hd₀
    have hmem := List.mem_of_getElem? hd₀
    have hvalid := (passes_iff.mp hp).1.valid _ m hm
    exact ⟨m, d₀, hm, hmem, Module.decl_errors_of_valid hvalid hmem, rfl⟩
  refine ⟨?_, ?_, ?_, ?_⟩
  · intro id lm d hd
    obtain ⟨m, d₀, hm, hd₀, -, rfl⟩ := hgiven hd
    exact nodup_allFields_linkDecl hp hm hbases hd₀
  · intro id lm d hd
    obtain ⟨m, d₀, hm, hd₀, hvalid, rfl⟩ := hgiven hd
    rw [variants_linkDecl, List.map_map]
    exact Decl.nodup_variants_of_valid hvalid
  · intro id lm d hd hk
    obtain ⟨m, d₀, hm, hd₀, hvalid, rfl⟩ := hgiven hd
    rw [keys_linkDecl.1, keys_linkDecl.2]
    exact Decl.tagKey_ne_payloadKey hvalid (kind_linkDecl.symm.trans hk)
  · intro id lm d hd x hx
    obtain ⟨m, d₀, hm, hd₀, -, rfl⟩ := hgiven hd
    exact typeOk_heldTypes_linkDecl hp hm hbases hd₀ hx

/-- **So are the fields that declarations share**, in virtual structs as in
the structs that extend them. -/
theorem typeOk_of_mem_allFields {g : ModuleGraph} (hbases : BasesLinked w)
    (h : (resolve w ids).2 = .ok g) {id : DeclId} {lm : LinkedModule} {d : Decl}
    (hd : g.Declares id lm d) {f : Field} (hf : f ∈ g.workspace.allFields d) :
    g.TypeOk f.effectiveType := by
  obtain ⟨hp, rfl⟩ := passes_of_resolve h
  obtain ⟨m, d₀, hm, hd₀, rfl⟩ := exists_of_declares hp hd
  rw [hm.decl? id rfl] at hd₀
  exact typeOk_effectiveType hp hm hbases (List.mem_of_getElem? hd₀) hf

/-! ## Bases stay linked -/

/-- **The workspace that linking leaves**, whatever binds the references:
the given one, or one in which the imports are bound, or the references
too. -/
theorem resolveWith_workspace (bind : Workspace → List Nat → Workspace × List CompileError)
    (w : Workspace) (ids : List Nat) :
    (resolveWith bind w ids).1 = w ∨ (register w [] ids).2 = [] ∧
      ((resolveWith bind w ids).1 = withImports w ids ∨
        (resolveWith bind w ids).1 = (bind (withImports w ids) (order w ids)).1) := by
  by_cases hreg : (register w [] ids).2 = []
  · refine Or.inr ⟨hreg, ?_⟩
    simp only [resolveWith, hreg, List.isEmpty_nil, Bool.not_true, Bool.false_eq_true, if_false]
    split
    · exact Or.inl rfl
    · split
      · exact Or.inl rfl
      · split
        · exact Or.inl rfl
        · split
          · exact Or.inr rfl
          · split <;> exact Or.inr rfl
  · refine Or.inl ?_
    simp only [resolveWith]
    rw [if_pos (by simpa using hreg)]

section Kept

variable {P : Module → Prop}

/-- What holds of modules whatever they import is kept when imports are
bound. -/
theorem forall_withImports (h : ∀ m ∈ w, P m) (hreg : (register w [] ids).2 = [])
    (hP : ∀ m is, P m → P { m with imports := is }) : ∀ m ∈ withImports w ids, P m := by
  intro m hm
  obtain ⟨i, hi⟩ := List.mem_iff_getElem?.mp hm
  rw [withImports, getElem?_bindAllImports (nodup_order hreg)] at hi
  split at hi
  · obtain ⟨m₀, hm₀, rfl⟩ := Option.map_eq_some_iff.mp hi
    exact hP m₀ _ (h m₀ (List.mem_of_getElem? hm₀))
  · exact h m (List.mem_of_getElem? hi)

/-- And what holds of them whatever binds their declarations is kept when
references are. -/
theorem forall_bindAllRefs (h : ∀ m ∈ w, P m) (hnd : ids.Nodup) (hP : ∀ m W i, P m →
    P { m with decls := m.decls.map fun d => (bindDecl W m i d).1 }) :
    ∀ m ∈ (bindAllRefs w ids).1, P m := by
  intro m hm
  obtain ⟨i, hi⟩ := List.mem_iff_getElem?.mp hm
  rw [getElem?_bindAllRefs_map hnd] at hi
  split at hi
  · obtain ⟨m₀, hm₀, rfl⟩ := Option.map_eq_some_iff.mp hi
    exact hP m₀ w i (h m₀ (List.mem_of_getElem? hm₀))
  · exact h m (List.mem_of_getElem? hi)

end Kept

/-- A declaration that extends nothing keeps the base that it has. -/
theorem base_bindDecl_of_nil {m : Module} {i : Nat} {d : Decl} (h : d.extend = []) :
    (bindDecl w m i d).1.base = d.base := by
  simp [bindDecl, bindDeclBy, bindBaseBy, h]

/-- **Linking keeps bases linked**, also when it fails. -/
theorem basesLinked_resolve (h : BasesLinked w) : BasesLinked (resolve w ids).1 := by
  rw [resolve]
  rcases resolveWith_workspace bindAllRefs w ids with heq | ⟨hreg, heq⟩
  · rw [heq]
    exact h
  have himports : BasesLinked (withImports w ids) := forall_withImports h hreg fun _ _ hm => hm
  rcases heq with heq | heq <;> rw [heq]
  · exact himports
  · refine forall_bindAllRefs himports (nodup_order hreg) fun m W i hm d hd hext => ?_
    obtain ⟨d₀, hd₀, rfl⟩ := List.mem_map.mp hd
    have hnil : d₀.extend = [] := hext
    rw [base_bindDecl_of_nil hnil]
    exact hm d₀ hd₀ hnil

end WireModel
