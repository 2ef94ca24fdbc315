import WireModel.Proofs.Link.Linked

/-!
# Bindings — what a linked module refers to

After linking, an import is bound to the given module at its path, a
reference to the declaration it names, and a struct to the virtual
struct it extends; nothing else of a module has changed
(`resolve_bindings`).

Three look-ups that do not know of each other lead from a reference to a
module: the scope in which linking looks for the declaration, the module
that owns the declaration in the graph, and the dependency that the
alias stands for. `Bound` says that they agree. Each of them is compared
with `LooksInto`, which allows one module only (`LooksInto.unique`), and
that module stands before the one that refers to it because a schedule
places needs first.
-/

namespace WireModel

open Relation Linking

/-! ## Forgetting bindings -/

/-- The import as it is written. -/
def Import.unbound (x : Import) : Import := { x with bound := none }

/-- The declaration as it is written. -/
def Decl.unbound (d : Decl) : Decl :=
  { d.mapTypes (·.bindRefs fun _ => none) with base := none }

/-- The module as it is written. -/
def Module.unbound (m : Module) : Module :=
  { m with imports := m.imports.map (·.unbound), decls := m.decls.map (·.unbound) }

/-! ## What is guaranteed -/

section Guaranteed

variable (w : Workspace) (ids : List Nat) (g : ModuleGraph)

/-- **A reference of a linked module is bound right**: to the declaration
it names, in the module it looks into. -/
structure Bound (lm : LinkedModule) (r : Ref) (id : DeclId) : Prop where
  target : r.target = some id
  /-- The declaration is in the module of the reference, or in the one its
  alias stands for. -/
  scope : LooksInto w ids lm.id r id.module
  /-- It has the name that the reference has, and values. -/
  named : ∃ e, g.workspace.decl? id = some e ∧ e.name = r.name ∧
    (e.kind = .struct ∨ e.kind = .union ∨ e.kind = .newtype)
  /-- It is the only one of that name there. -/
  unique : ∀ id' e, LooksInto w ids lm.id r id'.module → g.workspace.decl? id' = some e →
    e.name = r.name → id' = id
  /-- Without an alias it belongs to the module itself. -/
  own : r.ns = [] → g.moduleOf? id = some lm
  /-- And with one to the dependency of that alias, which is placed before
  the module. -/
  other : r.ns ≠ [] → ∃ dep, g.moduleOf? id = some dep ∧ g.dep? lm r.ns = some dep.id ∧
    dep.id ∈ lm.deps ∧ [dep, lm].Sublist g.modules

/-- **The bindings of a linked module are right.** -/
structure BindingsOk (lm : LinkedModule) (m : Module) : Prop where
  /-- An import is bound to the one given module at its path. -/
  imports : ∀ x ∈ m.imports, ∃ j, x.bound = some j ∧
    ∀ k, (∃ n, Given w ids k n ∧ n.path = x.path) ↔ k = j
  /-- Every reference in a field, payload or newtype is bound. -/
  references : ∀ d ∈ m.decls, ∀ x ∈ d.members, ∀ width s elem,
    .node .ref width s elem ∈ x.2.nodes → ∃ r id, s = some r ∧ Bound w ids g lm r id
  /-- What is extended is the one declaration of that name in the module, a
  virtual struct; its fields come first, and no name stands twice. -/
  bases : ∀ d ∈ m.decls, d.extend ≠ [] → ∃ k b, d.base = some ⟨lm.id, k⟩ ∧
    m.decls[k]? = some b ∧ b.name = d.extend ∧ b.kind = .virtual ∧
    (∀ (j : Nat) (c : Decl), m.decls[j]? = some c → c.name = d.extend → j = k) ∧
    g.workspace.allFields d = b.fields ++ d.fields ∧
    ((g.workspace.allFields d).map (·.name)).Nodup

end Guaranteed

variable {w : Workspace} {ids : List Nat}

/-! ## What linking leaves as it is -/

theorem unbound_linkDecl {u : Workspace} {m : Module} {self : Nat} {d : Decl} :
    (linkDecl u m self d).unbound = d.unbound := by
  have htypes : (d.mapTypes (·.bindRefs (u.target? m self))).mapTypes (·.bindRefs fun _ => none) =
      d.mapTypes (·.bindRefs fun _ => none) :=
    Decl.mapTypes_mapTypes.trans
      (congrArg d.mapTypes (funext fun t => TypeExpr.bindRefs_bindRefs fun _ _ => rfl))
  exact congrArg (fun e : Decl => { e with base := none }) htypes

section Linked

variable (hp : Passes w ids)

include hp in
/-- **Linking changes nothing but bindings.** -/
theorem unbound_linkModule {u : Workspace} {i : Nat} {m : Module} (hm : Given w ids i m) :
    (linkModule u i (m.bindImports (paths w ids))).unbound = m.unbound := by
  have himports : (m.bindImports (paths w ids)).imports.map (·.unbound) =
      m.imports.map (·.unbound) := by
    rw [imports_bindImports hp.registered hp.imports hm, List.map_map]
    rfl
  have hdecls : (m.decls.map (linkDecl u (m.bindImports (paths w ids)) i)).map (·.unbound) =
      m.decls.map (·.unbound) := by
    rw [List.map_map]
    exact List.map_congr_left fun d _ => unbound_linkDecl
  calc (linkModule u i (m.bindImports (paths w ids))).unbound
      = { m with
          imports := (m.bindImports (paths w ids)).imports.map (·.unbound)
          decls := (m.decls.map (linkDecl u (m.bindImports (paths w ids)) i)).map
            (·.unbound) } := rfl
    _ = m.unbound := by rw [himports, hdecls]; rfl

/-! ## Modules of the graph -/

omit hp in
/-- A module of the graph is the analysis of one that is placed. -/
theorem mem_modules_graph_iff {lm : LinkedModule} :
    lm ∈ (graph w ids).modules ↔
      lm.id ∈ schedule (dependencies (linked w ids)) [] (order w ids) ∧
        lm = analyze (linked w ids) lm.id (dependencies (linked w ids) lm.id) := by
  constructor
  · intro h
    obtain ⟨i, hi, rfl⟩ := List.mem_map.mp h
    exact ⟨hi, rfl⟩
  · rintro ⟨hi, heq⟩
    rw [heq]
    exact List.mem_map_of_mem hi

include hp in
/-- **The graph has one module for each given one.** -/
theorem exists_mem_modules_iff {i : Nat} :
    (∃ lm ∈ (graph w ids).modules, lm.id = i) ↔ ∃ m, Given w ids i m := by
  rw [← mem_order_iff hp.registered, ← (schedule_perm_order hp).mem_iff]
  constructor
  · rintro ⟨lm, hlm, rfl⟩
    exact (mem_modules_graph_iff.mp hlm).1
  · intro hi
    refine ⟨analyze (linked w ids) i (dependencies (linked w ids) i), ?_, rfl⟩
    exact mem_modules_graph_iff.mpr ⟨hi, rfl⟩

omit hp in
/-- The modules of the graph are in the order in which they are placed. -/
theorem map_id_modules : (graph w ids).modules.map (·.id) =
    schedule (dependencies (linked w ids)) [] (order w ids) := by
  simp only [graph, List.map_map]
  exact List.map_id _

include hp in
theorem nodup_ids_modules : ((graph w ids).modules.map (·.id)).Nodup := by
  rw [map_id_modules, (schedule_perm_order hp).nodup_iff]
  exact nodup_order hp.registered

include hp in
/-- **The module that owns a declaration** is the one with its number. -/
theorem moduleOf?_eq_some {lm : LinkedModule} (hlm : lm ∈ (graph w ids).modules) {id : DeclId}
    (hid : id.module = lm.id) : (graph w ids).moduleOf? id = some lm := by
  obtain ⟨m, hm⟩ := (exists_mem_modules_iff hp).mp ⟨lm, hlm, rfl⟩
  obtain ⟨lm', hmod⟩ := (moduleOf?_graph_iff hp id).mpr ⟨m, hid ▸ hm⟩
  rw [hmod, eq_analyze_of_moduleOf? hmod, hid, ← (mem_modules_graph_iff.mp hlm).2]

/-! ## The module a reference looks into -/

omit hp in
/-- An alias leads to an imported module. -/
theorem LooksInto.importsModule {a b : Nat} {r : Ref} (hns : r.ns ≠ [])
    (h : LooksInto w ids a r b) : ImportsModule w ids a b := by
  obtain ⟨-, m, n, hm, hn, x, hx, -, hp⟩ := h.resolve_left fun h => hns h.1
  exact ⟨m, n, hm, hn, x, hx, hp⟩

include hp in
/-- **A reference looks into one module only.** -/
theorem LooksInto.unique {a b c : Nat} {r : Ref} (hb : LooksInto w ids a r b)
    (hc : LooksInto w ids a r c) : b = c := by
  have hwf := (passes_iff.mp hp).1
  rcases hb with ⟨hns, rfl⟩ | ⟨hns, m, n, hm, hn, x, hx, hxns, hxp⟩
  · rcases hc with ⟨-, rfl⟩ | ⟨hns', -⟩
    · rfl
    · exact absurd hns hns'
  · rcases hc with ⟨hns', -⟩ | ⟨-, m', n', hm', hn', y, hy, hyns, hyp⟩
    · exact absurd hns' hns
    · obtain rfl : m = m' := Option.some.inj (hm.2.symm.trans hm'.2)
      have hpath : x.path = y.path :=
        hwf.aliases_distinct a m hm x hx y hy (hxns.trans hyns.symm)
      exact hwf.paths_distinct b n c n' hn hn' (by rw [← hxp, hpath, hyp])

include hp in
/-- **The dependency of an alias** is the module that references with it
look into. -/
theorem dep?_eq_some {lm : LinkedModule} (hlm : lm ∈ (graph w ids).modules) {r : Ref}
    (hns : r.ns ≠ []) {b : Nat} (hlook : LooksInto w ids lm.id r b) :
    (graph w ids).dep? lm r.ns = some b := by
  obtain ⟨-, m, n, hm, hn, x, hx, hxns, hxp⟩ := hlook.resolve_left fun h => hns h.1
  have hdeps : lm.deps = dependencies (linked w ids) lm.id := by
    conv_lhs => rw [(mem_modules_graph_iff.mp hlm).2]
    rfl
  have hord : lm.id ∈ order w ids := (mem_order_iff hp.registered).mpr ⟨m, hm⟩
  have hpath : ∀ {c : Nat} {k : Module}, Given w ids c k →
      (linked w ids)[c]?.map (·.path) = some k.path := by
    intro c k hk
    rw [getElem?_linked hp.registered hp.references hk]
    rfl
  have himports := imports_bindImports hp.registered hp.imports hm
  have heq : (graph w ids).dep? lm r.ns =
      ((m.bindImports (paths w ids)).imports.filter (·.ns == r.ns)).findSome? fun y =>
        lm.deps.find? fun c => (linked w ids)[c]?.map (·.path) == some y.path := by
    simp only [ModuleGraph.dep?, graph, getElem?_linked hp.registered hp.references hm]
    rfl
  rw [heq]
  cases hdep : ((m.bindImports (paths w ids)).imports.filter (·.ns == r.ns)).findSome? fun y =>
      lm.deps.find? fun c => (linked w ids)[c]?.map (·.path) == some y.path with
  | none =>
    -- yet `x` is an import of the alias, and `b` is a dependency at its path
    have hx' : { x with bound := Text.lookup? x.path (paths w ids) } ∈
        (m.bindImports (paths w ids)).imports.filter (·.ns == r.ns) := by
      rw [himports, List.mem_filter]
      exact ⟨List.mem_map_of_mem hx, by simpa using hxns⟩
    have hb : b ∈ lm.deps := by
      rw [hdeps, mem_dependencies_iff hp hord]
      exact hlook.importsModule hns
    have hnone := List.find?_eq_none.mp (List.findSome?_eq_none_iff.mp hdep _ hx') b hb
    exact absurd (by simp [hpath hn, hxp]) hnone
  | some c =>
    obtain ⟨y', hy', hc⟩ := List.exists_of_findSome?_eq_some hdep
    obtain ⟨hy', hyns⟩ := List.mem_filter.mp hy'
    rw [himports] at hy'
    obtain ⟨y, hy, rfl⟩ := List.mem_map.mp hy'
    have hcdep : c ∈ lm.deps := List.mem_of_find?_eq_some hc
    rw [hdeps, mem_dependencies_iff hp hord] at hcdep
    obtain ⟨-, k, -, hk, -⟩ := hcdep
    have hcpath : (linked w ids)[c]?.map (·.path) = some y.path := by
      simpa using List.find?_some hc
    rw [hpath hk] at hcpath
    have hlook' : LooksInto w ids lm.id r c :=
      Or.inr ⟨hns, m, k, hm, hk, y, hy, by simpa using hyns, (Option.some.inj hcpath).symm⟩
    rw [hlook'.unique hp hlook]

/-! ## Everything together -/

include hp in
/-- **Every reference of a linked module is bound right.** -/
theorem bound_of_mem_nodes {lm : LinkedModule} (hlm : lm ∈ (graph w ids).modules) {m : Module}
    (hm : Given w ids lm.id m) {d : Decl} (hd : d ∈ m.decls) {x : Text × TypeExpr}
    (hx : x ∈ d.members) {width : Int} {s : Option Ref} {elem : TypeExpr}
    (hs : .node .ref width s elem ∈ (x.2.bindRefs
      ((withImports w ids).target? (m.bindImports (paths w ids)) lm.id)).nodes) :
    ∃ r id, s = some r ∧ Bound w ids (graph w ids) lm r id := by
  obtain ⟨hwf, hnamed⟩ := passes_iff.mp hp
  obtain ⟨r, hr, rfl⟩ := eq_bound_of_mem_nodes (hnamed lm.id m hm d hd x hx) hs
  obtain ⟨id, e, hnames, hkind⟩ := hwf.references lm.id m hm d hd x hx r hr
  have htarget := (target?_eq_some_iff hp.registered hp.imports hm).mpr
    ⟨e, hnames, Decl.isInstantiable_iff.mpr hkind⟩
  rw [htarget]
  obtain ⟨n, hn⟩ := given_of_looksInto hm hnames.1
  have hdecl : ∀ id', id'.module = id.module → (graph w ids).workspace.decl? id' =
      (w.decl? id').map (linkDecl (withImports w ids) (n.bindImports (paths w ids)) id'.module) :=
    fun id' hid => decl?_linked hp.registered hp.references id' (hid ▸ hn)
  refine ⟨_, id, rfl, rfl, hnames.1, ?_, ?_, ?_, ?_⟩
  · refine ⟨_, (hdecl id rfl).trans (congrArg _ hnames.2.1), hnames.2.2, ?_⟩
    rw [kind_linkDecl]
    exact hkind
  · -- names stand once in a valid module
    intro id' e' hlook hd' hname
    have hmod : id'.module = id.module := LooksInto.unique hp hlook hnames.1
    rw [hdecl id' hmod] at hd'
    obtain ⟨e₀, he₀, rfl⟩ := Option.map_eq_some_iff.mp hd'
    rw [hn.decl? id' hmod] at he₀
    have he : n.decls[id.index]? = some e := (hn.decl? id rfl).symm.trans hnames.2.1
    have hvalid := hwf.valid id.module n hn
    have hfind := Module.find?_of_valid hvalid he₀
    have hname' : e₀.name = e.name := hname.trans hnames.2.2.symm
    rw [hname', Module.find?_of_valid hvalid he] at hfind
    calc id' = ⟨id'.module, id'.index⟩ := rfl
      _ = ⟨id.module, id.index⟩ := by rw [hmod, Option.some.inj hfind]
  · intro hns
    refine moduleOf?_eq_some hp hlm ?_
    rcases hnames.1 with ⟨-, h⟩ | ⟨hns', -⟩
    · exact h
    · exact absurd hns hns'
  · intro hns
    obtain ⟨dep, hdep, hid⟩ := (exists_mem_modules_iff hp).mpr ⟨n, hn⟩
    obtain ⟨hi, hlmeq⟩ := mem_modules_graph_iff.mp hlm
    have hord : lm.id ∈ order w ids := (mem_order_iff hp.registered).mpr ⟨m, hm⟩
    have hneeds : dep.id ∈ dependencies (linked w ids) lm.id := by
      rw [mem_dependencies_iff hp hord, hid]
      exact hnames.1.importsModule hns
    refine ⟨dep, moduleOf?_eq_some hp hdep hid.symm, ?_, ?_, ?_⟩
    · rw [hid]
      exact dep?_eq_some hp hlm hns hnames.1
    · rw [hlmeq]
      exact hneeds
    · rw [(mem_modules_graph_iff.mp hdep).2, hlmeq]
      have hsub := sublist_schedule hi hneeds List.not_mem_nil
      exact hsub.map fun i => analyze (linked w ids) i (dependencies (linked w ids) i)

include hp in
/-- The bindings of a module of the graph are right. -/
theorem bindingsOk_linkModule {lm : LinkedModule} (hlm : lm ∈ (graph w ids).modules) {m : Module}
    (hm : Given w ids lm.id m) : BindingsOk w ids (graph w ids) lm
      (linkModule (withImports w ids) lm.id (m.bindImports (paths w ids))) := by
  have hwf := (passes_iff.mp hp).1
  have hmembers : ∀ d : Decl,
      (linkDecl (withImports w ids) (m.bindImports (paths w ids)) lm.id d).members =
        d.members.map fun x => (x.1, x.2.bindRefs
          ((withImports w ids).target? (m.bindImports (paths w ids)) lm.id)) :=
    fun d => Decl.members_mapTypes
  refine ⟨?_, ?_, ?_⟩
  · intro x' hx'
    have himports : x' ∈ (m.bindImports (paths w ids)).imports := hx'
    rw [imports_bindImports hp.registered hp.imports hm] at himports
    obtain ⟨x, hx, rfl⟩ := List.mem_map.mp himports
    obtain ⟨j, n, hn, hpath⟩ := hwf.imports_given lm.id m hm x hx
    refine ⟨j, (lookup?_paths_eq_some_iff hp.registered).mpr ⟨n, hn, hpath⟩, fun k => ?_⟩
    constructor
    · rintro ⟨n', hn', hpath'⟩
      exact hwf.paths_distinct k n' j n hn' hn (hpath'.trans hpath.symm)
    · rintro rfl
      exact ⟨n, hn, hpath⟩
  · intro d' hd' x' hx' width s elem hs
    obtain ⟨d, hd, rfl⟩ := List.mem_map.mp hd'
    rw [hmembers] at hx'
    obtain ⟨x, hx, rfl⟩ := List.mem_map.mp hx'
    exact bound_of_mem_nodes hp hlm hm hd hx hs
  · intro d' hd' hext
    obtain ⟨d, hd, rfl⟩ := List.mem_map.mp hd'
    obtain ⟨k, b, hk, hname, hv, hdisj, hbase, hall⟩ := base_linkDecl hp hm hd hext
    refine ⟨k, linkDecl (withImports w ids) (m.bindImports (paths w ids)) lm.id b, hbase, ?_,
      hname, kind_linkDecl.trans hv, ?_, hall, ?_⟩
    · rw [linkModule, List.getElem?_map]
      exact congrArg (Option.map _) hk
    · intro j c hj hc
      rw [linkModule, List.getElem?_map] at hj
      obtain ⟨c₀, hj₀, rfl⟩ := Option.map_eq_some_iff.mp hj
      have hc₀ : m.decls[j]? = some c₀ := hj₀
      have hfind := Module.find?_of_valid (hwf.valid lm.id m hm) hc₀
      have hname₀ : c₀.name = b.name := hc.trans hname.symm
      rw [hname₀, Module.find?_of_valid (hwf.valid lm.id m hm) hk] at hfind
      exact (Option.some.inj hfind).symm
    · have hnodup := nodup_fields_append hp hm (List.mem_of_getElem? hk) hd hdisj
      exact hall ▸ hnodup

end Linked

/-- **Bindings are right after linking.** The graph that linking gives has
one module for each given one; each is the given one but for its
bindings, and these are right. -/
theorem resolve_bindings {g : ModuleGraph} (h : (resolve w ids).2 = .ok g) :
    (g.modules.map (·.id)).Nodup ∧
      (∀ i, (∃ lm ∈ g.modules, lm.id = i) ↔ ∃ m, Given w ids i m) ∧
      ∀ lm ∈ g.modules, ∃ m₀ m, Given w ids lm.id m₀ ∧ g.workspace[lm.id]? = some m ∧
        m.unbound = m₀.unbound ∧ BindingsOk w ids g lm m := by
  obtain ⟨hp, rfl⟩ := passes_of_resolve h
  refine ⟨nodup_ids_modules hp, fun i => exists_mem_modules_iff hp, fun lm hlm => ?_⟩
  obtain ⟨m, hm⟩ := (exists_mem_modules_iff hp).mp ⟨lm, hlm, rfl⟩
  exact ⟨m, _, hm, getElem?_linked hp.registered hp.references hm, unbound_linkModule hp hm,
    bindingsOk_linkModule hp hlm hm⟩

/-- The modules of the sample are linked with all bindings right. -/
theorem Sample.modules_bindings :
    ((graph Sample.modules [0, 1]).modules.map (·.id)).Nodup ∧
      (∀ i, (∃ lm ∈ (graph Sample.modules [0, 1]).modules, lm.id = i) ↔
        ∃ m, Given Sample.modules [0, 1] i m) ∧
      ∀ lm ∈ (graph Sample.modules [0, 1]).modules, ∃ m₀ m,
        Given Sample.modules [0, 1] lm.id m₀ ∧
        (graph Sample.modules [0, 1]).workspace[lm.id]? = some m ∧ m.unbound = m₀.unbound ∧
        BindingsOk Sample.modules [0, 1] (graph Sample.modules [0, 1]) lm m :=
  resolve_bindings Sample.resolve_modules

end WireModel
