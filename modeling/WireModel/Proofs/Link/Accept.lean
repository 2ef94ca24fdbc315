import Mathlib
import WireModel.Proofs.Link.Steps
import WireModel.Proofs.Spec.Validate
import WireModel.Sample

/-!
# Acceptance — which modules can be linked

`WellFormed` says, of the modules as they are given and without any
binding, what linking asks of them. Linking succeeds exactly on
well-formed modules (`resolve_accepts_iff`).

The proof goes through the steps in their order. Each step is read
under what the steps before it have established: paths stand for one
module each before imports are looked at, imports are bound and free of
circles before references are, and a circle of newtypes cannot leave a
module because the imports it would need go in a circle too.

What every step looks for can be evaluated, `passes_iff_evaluates`, so
that closed modules are linked without running the search for circles.
-/

namespace WireModel

open Relation

/-! ## What is asked -/

section Asked

variable (w : Workspace) (ids : List Nat)

/-- A module that is to be linked, by its number. -/
def Given (i : Nat) (m : Module) : Prop := i ∈ ids ∧ w[i]? = some m

/-- A module imports another one: one of its imports has the path of the
other. -/
def ImportsModule (a b : Nat) : Prop :=
  ∃ m n, Given w ids a m ∧ Given w ids b n ∧ ∃ x ∈ m.imports, x.path = n.path

/-- The module a reference looks into: its own if it has no alias, and
otherwise one imported under that alias. -/
def LooksInto (a : Nat) (r : Ref) (b : Nat) : Prop :=
  (r.ns = [] ∧ b = a) ∨ (r.ns ≠ [] ∧ ∃ m n, Given w ids a m ∧ Given w ids b n ∧
    ∃ x ∈ m.imports, x.ns = r.ns ∧ x.path = n.path)

/-- A reference of a module names a declaration of the module it looks
into. -/
def Names (a : Nat) (r : Ref) (id : DeclId) (d : Decl) : Prop :=
  LooksInto w ids a r id.module ∧ w.decl? id = some d ∧ d.name = r.name

/-- What a declaration extends is a virtual struct of its module that
shares no field name with it. -/
def ExtendsVirtual (m : Module) (d : Decl) : Prop :=
  ∃ b ∈ m.decls, b.name = d.extend ∧ b.kind = .virtual ∧
    ∀ f ∈ b.fields, ∀ g ∈ d.fields, f.name ≠ g.name

/-- Every reference in a field, payload or newtype of a declaration of a
module names a struct, a union or a newtype. -/
def RefersToValues (a : Nat) (d : Decl) : Prop :=
  ∀ x ∈ d.members, ∀ r, some r ∈ x.2.refs → ∃ id e, Names w ids a r id e ∧
    (e.kind = .struct ∨ e.kind = .union ∨ e.kind = .newtype)

/-- A newtype wraps another one: its type is a bare reference to it. -/
def WrapsNewtype (a b : DeclId) : Prop :=
  a.module ∈ ids ∧ ∃ d e width r elem, w.decl? a = some d ∧
    d.body = .newtype (.node .ref width (some r) elem) ∧
    Names w ids a.module r b e ∧ e.kind = .newtype

/-- **Modules that can be linked**, said of what was written. -/
structure WellFormed : Prop where
  /-- No two modules share a path. -/
  paths_distinct : ∀ i m j n, Given w ids i m → Given w ids j n → m.path = n.path → i = j
  /-- Every module is valid. -/
  valid : ∀ i m, Given w ids i m → m.errors = []
  /-- Every import has an alias. -/
  imports_named : ∀ i m, Given w ids i m → ∀ x ∈ m.imports, x.ns ≠ []
  /-- And the path of a module that is given. -/
  imports_given : ∀ i m, Given w ids i m → ∀ x ∈ m.imports, ∃ j n, Given w ids j n ∧ n.path = x.path
  /-- No alias of a module stands for two paths. -/
  aliases_distinct : ∀ i m, Given w ids i m → ∀ x ∈ m.imports, ∀ y ∈ m.imports,
    x.ns = y.ns → x.path = y.path
  /-- Imports do not go in circles. -/
  imports_acyclic : ∀ i, ¬ TransGen (ImportsModule w ids) i i
  /-- What is extended is a virtual struct with other fields. -/
  bases : ∀ i m, Given w ids i m → ∀ d ∈ m.decls, d.extend ≠ [] → ExtendsVirtual m d
  /-- References name declarations that have values. -/
  references : ∀ i m, Given w ids i m → ∀ d ∈ m.decls, RefersToValues w ids i d
  /-- Newtypes do not wrap each other in circles. -/
  newtypes_acyclic : ∀ a, ¬ TransGen (WrapsNewtype w ids) a a

/-- **Modules whose imports can be bound**, so that linking gets to their
references. -/
structure Importable : Prop where
  paths_distinct : ∀ i m j n, Given w ids i m → Given w ids j n → m.path = n.path → i = j
  valid : ∀ i m, Given w ids i m → m.errors = []
  imports_named : ∀ i m, Given w ids i m → ∀ x ∈ m.imports, x.ns ≠ []
  imports_given : ∀ i m, Given w ids i m → ∀ x ∈ m.imports, ∃ j n, Given w ids j n ∧ n.path = x.path
  aliases_distinct : ∀ i m, Given w ids i m → ∀ x ∈ m.imports, ∀ y ∈ m.imports,
    x.ns = y.ns → x.path = y.path
  imports_acyclic : ∀ i, ¬ TransGen (ImportsModule w ids) i i

end Asked

/-! ## The stages of a workspace -/

namespace Linking

variable (w : Workspace) (ids : List Nat)

/-- The paths of the given modules, with the module each stands for. -/
def paths : List (Text × Nat) := (register w [] ids).1

/-- The modules in the order of their paths. -/
def order : List Nat := (Text.sortByKey (paths w ids)).map (·.2)

/-- The workspace once the imports are bound. -/
def withImports : Workspace := (bindAllImports w (paths w ids) (order w ids)).1

/-- The workspace once the references are bound too. -/
def linked : Workspace := (bindAllRefs (withImports w ids) (order w ids)).1

/-- The graph of the linked modules. -/
def graph : ModuleGraph where
  workspace := linked w ids
  modules := (schedule (dependencies (linked w ids)) [] (order w ids)).map fun i =>
    analyze (linked w ids) i (dependencies (linked w ids) i)

/-- **No step finds an error.** -/
structure Passes : Prop where
  registered : (register w [] ids).2 = []
  imports : (bindAllImports w (paths w ids) (order w ids)).2 = []
  circles : cycleErrors (withImports w ids) (order w ids) = []
  named : ∀ i ∈ order w ids, ((withImports w ids)[i]?).any (·.hasUnnamedRef) = false
  references : (bindAllRefs (withImports w ids) (order w ids)).2 = []
  newtypes : ∀ i ∈ order w ids, recursionErrors (linked w ids) i = []

end Linking

open Linking

variable {w : Workspace} {ids : List Nat}

/-- The last steps of linking, once all references are bound. -/
def finish (w : Workspace) (ids : List Nat) : Except LinkFailure ModuleGraph :=
  if !(ids.flatMap (recursionErrors w)).isEmpty then
    .error (.errors (ids.flatMap (recursionErrors w)))
  else
    .ok {
      workspace := w
      modules := (schedule (dependencies w) [] ids).map fun id =>
        analyze w id (dependencies w id) }

/-- The steps of linking in their order, each with what it sees. -/
theorem resolveWith_eq (bind : Workspace → List Nat → Workspace × List CompileError)
    (w : Workspace) (ids : List Nat) :
    (resolveWith bind w ids).2 =
      if !(register w [] ids).2.isEmpty then .error (.errors (register w [] ids).2)
      else if !(bindAllImports w (paths w ids) (order w ids)).2.isEmpty then
        .error (.errors (bindAllImports w (paths w ids) (order w ids)).2)
      else if !(cycleErrors (withImports w ids) (order w ids)).isEmpty then
        .error (.errors (cycleErrors (withImports w ids) (order w ids)))
      else if (order w ids).any fun i => ((withImports w ids)[i]?).any (·.hasUnnamedRef) then
        .error .unnamedReference
      else if !(bind (withImports w ids) (order w ids)).2.isEmpty then
        .error (.errors (bind (withImports w ids) (order w ids)).2)
      else finish (bind (withImports w ids) (order w ids)).1 (order w ids) := by
  simp only [resolveWith, apply_ite Prod.snd, finish, withImports, order, paths]
  rfl

/-- **Linking succeeds when no step finds an error**, and gives the graph
of the linked modules. -/
theorem resolve_of_passes (h : Passes w ids) :
    resolve w ids = (linked w ids, .ok (graph w ids)) := by
  have hnamed : ((order w ids).any fun i => ((withImports w ids)[i]?).any (·.hasUnnamedRef)) =
      false := by
    rw [List.any_eq_false]
    intro i hi
    simp [h.named i hi]
  have hnew : (order w ids).flatMap (recursionErrors (linked w ids)) = [] :=
    List.flatMap_eq_nil_iff.mpr h.newtypes
  have hreg := h.registered
  have himp := h.imports
  have hcir := h.circles
  have href := h.references
  simp only [paths, order, withImports, linked] at hnamed hnew himp hcir href
  simp only [resolve, resolveWith, hreg, himp, hcir, hnamed, href, hnew, List.isEmpty_nil,
    Bool.not_true, Bool.false_eq_true, if_false, graph, linked, withImports, order, paths]

/-- **Linking ends with the import circles**, if the steps before have
found no error and there are any. -/
theorem resolve_of_circles (hreg : (register w [] ids).2 = [])
    (himp : (bindAllImports w (paths w ids) (order w ids)).2 = [])
    (hcir : cycleErrors (withImports w ids) (order w ids) ≠ []) :
    (resolve w ids).2 = .error (.errors (cycleErrors (withImports w ids) (order w ids))) := by
  rw [resolve, resolveWith_eq, if_neg (by simp [hreg]), if_neg (by simp [himp]),
    if_pos (by simpa using hcir)]

/-- **How linking ends**: with the errors of the first step that finds any,
with a reference without a name, or with the graph. Each constructor holds
what the steps before have found. -/
inductive EndsWith (w : Workspace) (ids : List Nat) : Except LinkFailure ModuleGraph → Prop
  | registering (hne : (register w [] ids).2 ≠ []) :
      EndsWith w ids (.error (.errors (register w [] ids).2))
  | importing (hreg : (register w [] ids).2 = [])
      (hne : (bindAllImports w (paths w ids) (order w ids)).2 ≠ []) :
      EndsWith w ids (.error (.errors (bindAllImports w (paths w ids) (order w ids)).2))
  | circling (hreg : (register w [] ids).2 = [])
      (himp : (bindAllImports w (paths w ids) (order w ids)).2 = [])
      (hne : cycleErrors (withImports w ids) (order w ids) ≠ []) :
      EndsWith w ids (.error (.errors (cycleErrors (withImports w ids) (order w ids))))
  | unnamed (hreg : (register w [] ids).2 = [])
      (himp : (bindAllImports w (paths w ids) (order w ids)).2 = [])
      (hcir : cycleErrors (withImports w ids) (order w ids) = [])
      (hname : ∃ i ∈ order w ids, ((withImports w ids)[i]?).any (·.hasUnnamedRef) = true) :
      EndsWith w ids (.error .unnamedReference)
  | binding (hreg : (register w [] ids).2 = [])
      (hne : (bindAllRefs (withImports w ids) (order w ids)).2 ≠ []) :
      EndsWith w ids (.error (.errors (bindAllRefs (withImports w ids) (order w ids)).2))
  | wrapping (hreg : (register w [] ids).2 = [])
      (hne : (order w ids).flatMap (recursionErrors (linked w ids)) ≠ []) :
      EndsWith w ids (.error (.errors ((order w ids).flatMap (recursionErrors (linked w ids)))))
  | passing (h : Passes w ids) : EndsWith w ids (.ok (graph w ids))

theorem resolve_endsWith (w : Workspace) (ids : List Nat) : EndsWith w ids (resolve w ids).2 := by
  have hnil : ∀ {l : List CompileError}, ¬ (!l.isEmpty) = true → l = [] := by simp
  have hne : ∀ {l : List CompileError}, (!l.isEmpty) = true → l ≠ [] := by simp
  rw [resolve, resolveWith_eq]
  -- the steps in their order: the first that finds an error ends linking
  split
  next hreg => exact .registering (hne hreg)
  next hreg =>
  split
  next himp => exact .importing (hnil hreg) (hne himp)
  next himp =>
  split
  next hcir => exact .circling (hnil hreg) (hnil himp) (hne hcir)
  next hcir =>
  split
  next hname => exact .unnamed (hnil hreg) (hnil himp) (hnil hcir) (by simpa using hname)
  next hname =>
  split
  next href => exact .binding (hnil hreg) (hne href)
  next href =>
  rw [finish]
  split
  next hnew => exact .wrapping (hnil hreg) (hne hnew)
  next hnew =>
  exact .passing {
    registered := hnil hreg
    imports := hnil himp
    circles := hnil hcir
    named := by simpa using hname
    references := hnil href
    newtypes := List.flatMap_eq_nil_iff.mp (hnil hnew) }

/-- No step finds an error, or a reference without a name is met, or the
errors of a step are given back. -/
theorem resolve_cases (w : Workspace) (ids : List Nat) :
    Passes w ids ∨
      ((register w [] ids).2 = [] ∧
        (∃ i ∈ order w ids, ((withImports w ids)[i]?).any (·.hasUnnamedRef) = true) ∧
        (resolve w ids).2 = .error .unnamedReference) ∨
      ∃ es, es ≠ [] ∧ (resolve w ids).2 = .error (.errors es) := by
  have hends := resolve_endsWith w ids
  generalize (resolve w ids).2 = r at hends ⊢
  cases hends with
  | passing h => exact .inl h
  | unnamed hreg _ _ hname => exact .inr (.inl ⟨hreg, hname, rfl⟩)
  | registering hne | importing _ hne | circling _ _ hne | binding _ hne | wrapping _ hne =>
    exact .inr (.inr ⟨_, hne, rfl⟩)

/-- **What comes of success**: every step passed, and the graph is that of
the linked modules. -/
theorem passes_of_resolve {g : ModuleGraph} (h : (resolve w ids).2 = .ok g) :
    Passes w ids ∧ g = graph w ids := by
  rcases resolve_cases w ids with hp | ⟨-, -, he⟩ | ⟨es, -, he⟩
  · refine ⟨hp, ?_⟩
    rw [resolve_of_passes hp] at h
    exact (Except.ok.inj h).symm
  · rw [he] at h
    cases h
  · rw [he] at h
    cases h

/-- **Then linking gives the graph.** -/
theorem resolve_eq_graph (h : Passes w ids) : (resolve w ids).2 = .ok (graph w ids) := by
  rw [resolve_of_passes h]

/-! ## Registered modules -/

section Registered

theorem lookup?_paths (path : Text) : Text.lookup? path (paths w ids) = firstAt w path ids := by
  rw [paths, lookup?_register]
  simp

/-- **Registering passes** exactly when the given modules have distinct
paths and are valid. -/
theorem registered_iff :
    (register w [] ids).2 = [] ↔
      (∀ i m j n, Given w ids i m → Given w ids j n → m.path = n.path → i = j) ∧
        ∀ i m, Given w ids i m → m.errors = [] := by
  rw [register_errors_eq_nil_iff]
  simp only [Text.lookup?_nil, Option.none_or, true_implies]
  constructor
  · intro h
    refine ⟨fun i m j n hi hj hp => ?_, fun i m hi => (h i hi.1 m hi.2).2⟩
    have hfi := (h i hi.1 m hi.2).1
    rw [hp, (h j hj.1 n hj.2).1] at hfi
    exact (Option.some.inj hfi).symm
  · rintro ⟨hpaths, hvalid⟩ i hi m hm
    refine ⟨?_, hvalid i m ⟨hi, hm⟩⟩
    cases hf : firstAt w m.path ids with
    | none =>
      have := List.find?_eq_none.mp hf i hi
      simp [hm] at this
    | some j =>
      obtain ⟨hj, n, hn, hp⟩ := of_firstAt hf
      rw [hpaths j n i m ⟨hj, hn⟩ ⟨hi, hm⟩ hp]

variable (hreg : (register w [] ids).2 = [])

include hreg in
/-- **A path stands for the given module that has it.** -/
theorem lookup?_paths_eq_some_iff {path : Text} {i : Nat} :
    Text.lookup? path (paths w ids) = some i ↔ ∃ m, Given w ids i m ∧ m.path = path := by
  rw [lookup?_paths]
  constructor
  · intro h
    obtain ⟨hi, m, hm, hp⟩ := of_firstAt h
    exact ⟨m, ⟨hi, hm⟩, hp⟩
  · rintro ⟨m, ⟨hi, hm⟩, rfl⟩
    have h := register_errors_eq_nil_iff.mp hreg i hi m hm
    simpa using h.1

theorem nodup_paths : ((paths w ids).map (·.1)).Nodup := nodup_register (by simp)

include hreg in
/-- The modules to link are the given ones that exist. -/
theorem mem_order_iff {i : Nat} : i ∈ order w ids ↔ ∃ m, Given w ids i m := by
  rw [order, List.mem_map]
  constructor
  · rintro ⟨⟨p, j⟩, hmem, rfl⟩
    have hl := Text.lookup?_eq_some_of_mem nodup_paths
      ((Text.sortByKey_perm _).mem_iff.mp hmem)
    obtain ⟨m, hm, -⟩ := (lookup?_paths_eq_some_iff hreg).mp hl
    exact ⟨m, hm⟩
  · rintro ⟨m, hm⟩
    have hl := (lookup?_paths_eq_some_iff hreg).mpr ⟨m, hm, rfl⟩
    exact ⟨(m.path, i), (Text.sortByKey_perm _).mem_iff.mpr (Text.mem_of_lookup? hl), rfl⟩

include hreg in
/-- And each is linked once. -/
theorem nodup_order : (order w ids).Nodup := by
  have hnd : (Text.sortByKey (paths w ids)).Nodup :=
    (Text.sortByKey_perm _).nodup_iff.mpr (List.Nodup.of_map _ nodup_paths)
  refine List.Nodup.map_on ?_ hnd
  rintro ⟨p, i⟩ hp ⟨q, j⟩ hq (rfl : i = j)
  have hlp := Text.lookup?_eq_some_of_mem nodup_paths ((Text.sortByKey_perm _).mem_iff.mp hp)
  have hlq := Text.lookup?_eq_some_of_mem nodup_paths ((Text.sortByKey_perm _).mem_iff.mp hq)
  obtain ⟨m, hm, rfl⟩ := (lookup?_paths_eq_some_iff hreg).mp hlp
  obtain ⟨n, hn, rfl⟩ := (lookup?_paths_eq_some_iff hreg).mp hlq
  rw [Option.some.inj (hm.2.symm.trans hn.2)]

/-! ## Bound imports -/

include hreg in
/-- **Binding imports passes** exactly when every import has an alias and
the path of a given module, and no alias stands for two paths. -/
theorem imports_iff :
    (bindAllImports w (paths w ids) (order w ids)).2 = [] ↔ ∀ i m, Given w ids i m →
      (∀ x ∈ m.imports, x.ns ≠ [] ∧ ∃ j n, Given w ids j n ∧ n.path = x.path) ∧
        ∀ x ∈ m.imports, ∀ y ∈ m.imports, x.ns = y.ns → x.path = y.path := by
  have hbind : ∀ x : Import, Bindable (paths w ids) [] x ↔
      x.ns ≠ [] ∧ ∃ j n, Given w ids j n ∧ n.path = x.path := by
    intro x
    simp only [Bindable, Text.lookup?_nil, reduceCtorEq, false_implies, implies_true, true_and,
      Option.isSome_iff_exists, lookup?_paths_eq_some_iff hreg]
  rw [bindAllImports_errors_eq_nil_iff (nodup_order hreg)]
  constructor
  · -- the modules that are looked at are the given ones
    intro h i m hm
    have he := bindImports_errors_eq_nil_iff.mp
      (h i ((mem_order_iff hreg).mpr ⟨m, hm⟩) m hm.2)
    exact ⟨fun x hx => (hbind x).mp (he.1 x hx), he.2⟩
  · intro h i hi m hm
    obtain ⟨n, hn⟩ := (mem_order_iff hreg).mp hi
    obtain rfl : n = m := Option.some.inj (hn.2.symm.trans hm)
    obtain ⟨himp, hal⟩ := h i n hn
    exact bindImports_errors_eq_nil_iff.mpr ⟨fun x hx => (hbind x).mpr (himp x hx), hal⟩

variable (himp : (bindAllImports w (paths w ids) (order w ids)).2 = [])

include hreg in
/-- A given module once imports are bound. -/
theorem getElem?_withImports {i : Nat} {m : Module} (hm : Given w ids i m) :
    (withImports w ids)[i]? = some (m.bindImports (paths w ids)) := by
  rw [withImports, getElem?_bindAllImports (nodup_order hreg),
    if_pos ((mem_order_iff hreg).mpr ⟨m, hm⟩), hm.2]
  rfl

include hreg himp in
/-- **Every import is bound to the given module at its path.** -/
theorem imports_bindImports {i : Nat} {m : Module} (hm : Given w ids i m) :
    (m.bindImports (paths w ids)).imports =
      m.imports.map fun x => { x with bound := Text.lookup? x.path (paths w ids) } := by
  refine bindImports_eq_map ?_
  have h := (bindAllImports_errors_eq_nil_iff (nodup_order hreg)).mp himp
  exact h i ((mem_order_iff hreg).mpr ⟨m, hm⟩) m hm.2

include hreg himp in
/-- The imports that are bound in a module are the import relation. -/
theorem mem_importGraph_edges_iff {a b : Nat} (ha : a ∈ order w ids) :
    b ∈ (importGraph (withImports w ids) (order w ids)).edges a ↔ ImportsModule w ids a b := by
  obtain ⟨m, hm⟩ := (mem_order_iff hreg).mp ha
  have hedges : (importGraph (withImports w ids) (order w ids)).edges a =
      m.imports.filterMap fun x => Text.lookup? x.path (paths w ids) := by
    simp only [importGraph, getElem?_withImports hreg hm, Option.map_some, Option.getD_some,
      imports_bindImports hreg himp hm, List.filterMap_map]
    rfl
  rw [hedges, List.mem_filterMap]
  constructor
  · rintro ⟨x, hx, hl⟩
    obtain ⟨n, hn, hp⟩ := (lookup?_paths_eq_some_iff hreg).mp hl
    exact ⟨m, n, hm, hn, x, hx, hp.symm⟩
  · rintro ⟨m', n, hm', hn, x, hx, hp⟩
    obtain rfl : m = m' := Option.some.inj (hm.2.symm.trans hm'.2)
    exact ⟨x, hx, (lookup?_paths_eq_some_iff hreg).mpr ⟨n, hn, hp.symm⟩⟩

include hreg in
theorem mem_order_of_imports {a b : Nat} (h : ImportsModule w ids a b) :
    a ∈ order w ids ∧ b ∈ order w ids := by
  obtain ⟨m, n, hm, hn, -⟩ := h
  exact ⟨(mem_order_iff hreg).mpr ⟨m, hm⟩, (mem_order_iff hreg).mpr ⟨n, hn⟩⟩

include hreg himp in
/-- And so is the import graph of the workspace. -/
theorem step_importGraph_iff {a b : Nat} (ha : a ∈ order w ids) :
    (importGraph (withImports w ids) (order w ids)).Step a b ↔ ImportsModule w ids a b := by
  rw [Digraph.Step, mem_importGraph_edges_iff hreg himp ha]
  exact and_iff_left_of_imp fun h => (mem_order_of_imports hreg h).2

include hreg himp in
/-- And so are the chains of it chains of imports. -/
theorem transGen_importGraph_iff {a b : Nat} (ha : a ∈ order w ids) :
    TransGen (importGraph (withImports w ids) (order w ids)).Step a b ↔
      TransGen (ImportsModule w ids) a b := by
  constructor
  · intro h
    induction h with
    | single hs => exact TransGen.single ((step_importGraph_iff hreg himp ha).mp hs)
    | tail hab hs ih =>
      exact ih.tail ((step_importGraph_iff hreg himp (Digraph.mem_nodes_of_transGen hab)).mp hs)
  · intro h
    refine h.lift id fun _ _ hs => ?_
    exact (step_importGraph_iff hreg himp (mem_order_of_imports hreg hs).1).mpr hs

include hreg in
/-- A chain of imports is one among the modules to link. -/
theorem mem_order_of_transGen {a b : Nat} (h : TransGen (ImportsModule w ids) a b) :
    a ∈ order w ids ∧ b ∈ order w ids := by
  obtain ⟨c, hac, -⟩ := TransGen.head'_iff.mp h
  obtain ⟨d, -, hdb⟩ := TransGen.tail'_iff.mp h
  exact ⟨(mem_order_of_imports hreg hac).1, (mem_order_of_imports hreg hdb).2⟩

include hreg himp in
/-- **The circle check passes** exactly when imports do not go in
circles. -/
theorem circles_iff :
    cycleErrors (withImports w ids) (order w ids) = [] ↔
      ∀ i, ¬ TransGen (ImportsModule w ids) i i := by
  rw [cycleErrors_eq_nil_iff (nodup_order hreg)]
  constructor
  · intro h i hi
    have hord := (mem_order_of_transGen hreg hi).1
    exact h i hord ((transGen_importGraph_iff hreg himp hord).mpr hi)
  · exact fun h i hi hc => h i ((transGen_importGraph_iff hreg himp hi).mp hc)

/-! ## Bound references -/

include hreg himp in
/-- **A reference is looked up in the module it looks into.** -/
theorem scopeOf_eq_some_iff {i b : Nat} {m : Module} (hm : Given w ids i m) {r : Ref} :
    scopeOf (m.bindImports (paths w ids)) i r = some b ↔ LooksInto w ids i r b := by
  rw [scopeOf, LooksInto]
  by_cases hns : r.ns = []
  · simp [hns, eq_comm]
  · simp only [beq_iff_eq, hns, if_false, false_and, false_or, not_false_eq_true, true_and, ne_eq,
      imports_bindImports hreg himp hm, List.find?_map, Option.bind_eq_some_iff,
      Option.map_eq_some_iff]
    constructor
    · rintro ⟨y, ⟨x, hx, rfl⟩, hb⟩
      obtain ⟨n, hn, hp⟩ := (lookup?_paths_eq_some_iff hreg).mp hb
      have hxns : x.ns = r.ns := by simpa using List.find?_some hx
      exact ⟨m, n, hm, hn, x, List.mem_of_find?_eq_some hx, hxns, hp.symm⟩
    · rintro ⟨m', n, hm', hn, x, hx, hxns, hp⟩
      obtain rfl : m = m' := Option.some.inj (hm.2.symm.trans hm'.2)
      obtain ⟨y, hy⟩ : ∃ y, m.imports.find? (fun x => x.ns == r.ns) = some y := by
        rw [← Option.isSome_iff_exists, List.find?_isSome]
        exact ⟨x, hx, by simpa using hxns⟩
      have hyns : y.ns = r.ns := by simpa using List.find?_some hy
      -- the first import of an alias has the path of all others
      have hyp : y.path = x.path :=
        ((imports_iff hreg).mp himp i m hm).2 y (List.mem_of_find?_eq_some hy) x hx
          (hyns.trans hxns.symm)
      refine ⟨_, ⟨y, hy, rfl⟩, (lookup?_paths_eq_some_iff hreg).mpr ⟨n, hn, ?_⟩⟩
      rw [hyp, hp]

/-- A declaration of a given module. -/
theorem Given.decl? {i : Nat} {m : Module} (hm : Given w ids i m) (id : DeclId)
    (hid : id.module = i) : w.decl? id = m.decls[id.index]? := by
  rw [Workspace.decl?, hid, hm.2]

/-- Values exist of structs, unions and newtypes. -/
theorem Decl.isInstantiable_iff {d : Decl} :
    d.isInstantiable = true ↔ d.kind = .struct ∨ d.kind = .union ∨ d.kind = .newtype := by
  rw [Decl.isInstantiable, Decl.kind]
  cases d.body <;> simp [Body.kind]

/-- The module a reference looks into is given. -/
theorem given_of_looksInto {i b : Nat} {m : Module} (hm : Given w ids i m) {r : Ref}
    (h : LooksInto w ids i r b) : ∃ n, Given w ids b n := by
  rcases h with ⟨-, rfl⟩ | ⟨-, -, n, -, hn, -⟩
  · exact ⟨m, hm⟩
  · exact ⟨n, hn⟩

include hreg himp in
/-- **A reference is bound to the declaration it names**, if that has
values. -/
theorem target?_eq_some_iff {i : Nat} {m : Module} (hm : Given w ids i m) {r : Ref} {id : DeclId} :
    (withImports w ids).target? (m.bindImports (paths w ids)) i r = some id ↔
      ∃ e, Names w ids i r id e ∧ e.isInstantiable = true := by
  constructor
  · intro h
    simp only [Workspace.target?, bind, Option.bind_eq_some_iff] at h
    obtain ⟨b, hb, s, hs, k, hk, e, he, hid⟩ := h
    have hlook := (scopeOf_eq_some_iff hreg himp hm).mp hb
    obtain ⟨n, hn⟩ := given_of_looksInto hm hlook
    obtain rfl : n.bindImports (paths w ids) = s :=
      Option.some.inj ((getElem?_withImports hreg hn).symm.trans hs)
    obtain ⟨e', he', hname⟩ := Module.name_of_find? hk
    obtain rfl : e = e' := Option.some.inj (he.symm.trans he')
    split at hid
    · rename_i hinst
      obtain rfl := Option.some.inj hid
      refine ⟨e, ⟨hlook, ?_, hname⟩, hinst⟩
      rw [hn.decl? ⟨b, k⟩ rfl]
      exact he
    · cases hid
  · -- names of a valid module are distinct, so the one named is the one found
    rintro ⟨e, ⟨hlook, hdecl, hname⟩, hinst⟩
    obtain ⟨n, hn⟩ := given_of_looksInto hm hlook
    rw [hn.decl? id rfl] at hdecl
    have hfind : (n.bindImports (paths w ids)).find? r.name = some id.index := by
      rw [← hname]
      exact Module.find?_of_valid ((registered_iff.mp hreg).2 _ n hn) hdecl
    have hdecl' : (n.bindImports (paths w ids)).decls[id.index]? = some e := hdecl
    simp only [Workspace.target?, bind, (scopeOf_eq_some_iff hreg himp hm).mpr hlook,
      Option.bind_some, getElem?_withImports hreg hn, hfind, hdecl', hinst, if_true]

include hreg in
/-- **What a declaration extends is in order** exactly when it is a
virtual struct of the module that shares no field name with it. -/
theorem baseOk_iff {i : Nat} {m : Module} (hm : Given w ids i m) {d : Decl} (hd : d ∈ m.decls) :
    BaseOk (withImports w ids) (m.bindImports (paths w ids)) i d ↔
      (d.extend ≠ [] → ExtendsVirtual m d) := by
  have hvalid := (registered_iff.mp hreg).2 i m hm
  have hfields : ∀ {k : Nat} {b : Decl}, m.decls[k]? = some b →
      (withImports w ids).allFields { d with base := some ⟨i, k⟩ } = b.fields ++ d.fields := by
    intro k b hb
    have hdecl : (withImports w ids).decl? ⟨i, k⟩ = some b := by
      simp only [Workspace.decl?, getElem?_withImports hreg hm]
      exact hb
    simp only [Workspace.allFields, Option.bind_some, hdecl]
    rfl
  rw [BaseOk, or_iff_not_imp_left]
  refine imp_congr_right fun _ => ?_
  constructor
  · rintro ⟨k, b, hk, hb, hv, hnd⟩
    obtain ⟨b', hb', hname⟩ := Module.name_of_find? hk
    obtain rfl : b = b' := Option.some.inj (hb.symm.trans hb')
    refine ⟨b, List.mem_of_getElem? hb, hname, hv, fun f hf g hg heq => ?_⟩
    rw [hfields hb, List.map_append, List.nodup_append] at hnd
    exact hnd.2.2 _ (List.mem_map_of_mem hf) _ (List.mem_map_of_mem hg) heq
  · rintro ⟨b, hb, hname, hv, hdisj⟩
    obtain ⟨k, hk⟩ := List.getElem?_of_mem hb
    refine ⟨k, b, ?_, hk, hv, ?_⟩
    · rw [← hname]
      exact Module.find?_of_valid hvalid hk
    · rw [hfields hk, List.map_append, List.nodup_append]
      refine ⟨Decl.nodup_fields_of_valid (Module.decl_errors_of_valid hvalid hb),
        Decl.nodup_fields_of_valid (Module.decl_errors_of_valid hvalid hd), ?_⟩
      intro x hx y hy
      obtain ⟨f, hf, rfl⟩ := List.mem_map.mp hx
      obtain ⟨g, hg, rfl⟩ := List.mem_map.mp hy
      exact hdisj f hf g hg

include hreg himp in
/-- **Binding references passes** exactly when bases are in order and
references name declarations with values. -/
theorem references_iff :
    (bindAllRefs (withImports w ids) (order w ids)).2 = [] ↔
      ∀ i m, Given w ids i m → ∀ d ∈ m.decls,
        (d.extend ≠ [] → ExtendsVirtual m d) ∧ RefersToValues w ids i d := by
  have hdecl : ∀ {i m d}, Given w ids i m → d ∈ m.decls →
      ((bindDecl (withImports w ids) (m.bindImports (paths w ids)) i d).2 = [] ↔
        (d.extend ≠ [] → ExtendsVirtual m d) ∧ RefersToValues w ids i d) := by
    intro i m d hm hd
    rw [bindDecl_errors_eq_nil_iff, baseOk_iff hreg hm hd]
    refine and_congr_right fun _ => forall₂_congr fun x _ => forall₂_congr fun r _ => ?_
    simp only [Option.isSome_iff_exists, target?_eq_some_iff hreg himp hm,
      Decl.isInstantiable_iff]
  rw [bindAllRefs_errors_eq_nil_iff]
  constructor
  · intro h i m hm d hd
    exact (hdecl hm hd).mp (h i ((mem_order_iff hreg).mpr ⟨m, hm⟩) _
      (getElem?_withImports hreg hm) d hd)
  · intro h i hi m hm d hd
    obtain ⟨n, hn⟩ := (mem_order_iff hreg).mp hi
    obtain rfl : n.bindImports (paths w ids) = m :=
      Option.some.inj ((getElem?_withImports hreg hn).symm.trans hm)
    exact (hdecl hn hd).mpr (h i n hn d hd)

/-! ## Linked newtypes -/

@[simp] theorem kind_linkDecl {u : Workspace} {m : Module} {self : Nat} {d : Decl} :
    (linkDecl u m self d).kind = d.kind :=
  Decl.kind_mapTypes

theorem Decl.exists_wrapped {d : Decl} (h : d.kind = .newtype) : ∃ t, d.body = .newtype t := by
  rw [Decl.kind] at h
  cases hb : d.body <;> simp_all [Body.kind]

/-- A linked newtype is a newtype over the bound type. -/
theorem body_linkDecl_newtype_iff {u : Workspace} {m : Module} {self : Nat} {d : Decl}
    {t : TypeExpr} : (linkDecl u m self d).body = .newtype t ↔
      ∃ t₀, d.body = .newtype t₀ ∧ t = t₀.bindRefs (u.target? m self) := by
  simp only [linkDecl, Decl.mapTypes]
  cases d.body <;> simp [eq_comm]

/-- A bound type has a target exactly when it is a bare reference with
one. -/
theorem target?_bindRefs_eq_some_iff {f : Ref → Option DeclId} {t : TypeExpr} {id : DeclId} :
    (t.bindRefs f).target? = some id ↔
      ∃ width r elem, t = .node .ref width (some r) elem ∧ f r = some id := by
  cases t with
  | missing => simp [TypeExpr.bindRefs, TypeExpr.target?]
  | node k width r elem =>
    by_cases hk : k = .ref
    · subst hk
      cases r with
      | none => simp [TypeExpr.bindRefs, TypeExpr.target?]
      | some r => simp [TypeExpr.bindRefs, TypeExpr.target?]
    · rw [TypeExpr.bindRefs_node_of_ne hk, TypeExpr.target?]
      · simp [hk]
      · rintro _ _ _ ⟨⟩
        exact absurd rfl hk

/-- The newtype that a newtype wraps. -/
theorem mem_wrapsNewtype_iff {u : Workspace} {a b : DeclId} {d : Decl} {t : TypeExpr}
    (hd : u.decl? a = some d) (ht : d.body = .newtype t) :
    b ∈ u.wrapsNewtype a ↔ t.target? = some b ∧ ∃ e, u.decl? b = some e ∧ e.kind = .newtype := by
  simp only [Workspace.wrapsNewtype, hd, ht, List.mem_filter, Option.mem_toList]
  refine and_congr_right fun _ => ?_
  cases u.decl? b <;> simp

/-- The nodes of the graph of newtypes of a module. -/
theorem mem_wrapGraph_iff {u : Workspace} {i : Nat} {id : DeclId} :
    id ∈ (u.wrapGraph i).nodes ↔
      id.module = i ∧ ∃ d, u.decl? id = some d ∧ d.kind = .newtype := by
  simp only [Workspace.wrapGraph, List.mem_filter, mem_declIds_iff, and_assoc]
  refine and_congr_right fun _ => ?_
  constructor
  · rintro ⟨⟨d, hd⟩, hk⟩
    exact ⟨d, hd, by simpa [hd] using hk⟩
  · rintro ⟨d, hd, hk⟩
    exact ⟨⟨d, hd⟩, by simp [hd, hk]⟩

variable (href : (bindAllRefs (withImports w ids) (order w ids)).2 = [])

include hreg href in
/-- A given module once it is linked. -/
theorem getElem?_linked {i : Nat} {m : Module} (hm : Given w ids i m) :
    (linked w ids)[i]? =
      some (linkModule (withImports w ids) i (m.bindImports (paths w ids))) := by
  rw [linked, getElem?_bindAllRefs (nodup_order hreg) href,
    if_pos ((mem_order_iff hreg).mpr ⟨m, hm⟩), getElem?_withImports hreg hm]
  rfl

include hreg href in
/-- **A declaration of a given module once it is linked.** -/
theorem decl?_linked {m : Module} (id : DeclId) (hm : Given w ids id.module m) :
    (linked w ids).decl? id = (w.decl? id).map
      (linkDecl (withImports w ids) (m.bindImports (paths w ids)) id.module) := by
  rw [Workspace.decl?, hm.decl? id rfl, getElem?_linked hreg href hm]
  simp only [linkModule, List.getElem?_map]
  rfl

include hreg himp href in
/-- **A step from newtype to newtype in a linked module** is a newtype
wrapping another one of the same module. -/
theorem step_wrapGraph_iff {i : Nat} {a b : DeclId}
    (ha : a ∈ ((linked w ids).wrapGraph i).nodes) (hi : i ∈ order w ids) :
    ((linked w ids).wrapGraph i).Step a b ↔ WrapsNewtype w ids a b ∧ b.module = i := by
  obtain ⟨m, hm⟩ := (mem_order_iff hreg).mp hi
  obtain ⟨rfl, d', hd', hk'⟩ := mem_wrapGraph_iff.mp ha
  obtain ⟨d, hd, rfl⟩ := Option.map_eq_some_iff.mp ((decl?_linked hreg href a hm).symm.trans hd')
  rw [kind_linkDecl] at hk'
  obtain ⟨t, ht⟩ := Decl.exists_wrapped hk'
  have hbody : (linkDecl (withImports w ids) (m.bindImports (paths w ids)) a.module d).body =
      .newtype (t.bindRefs ((withImports w ids).target? (m.bindImports (paths w ids)) a.module)) :=
    body_linkDecl_newtype_iff.mpr ⟨t, ht, rfl⟩
  have hedges : ((linked w ids).wrapGraph a.module).edges a = (linked w ids).wrapsNewtype a := rfl
  rw [Digraph.Step, mem_wrapGraph_iff, hedges, mem_wrapsNewtype_iff hd' hbody,
    target?_bindRefs_eq_some_iff]
  constructor
  · rintro ⟨⟨⟨width, r, elem, rfl, hr⟩, -⟩, hb, e', he', hek⟩
    obtain ⟨e, hnames, -⟩ := (target?_eq_some_iff hreg himp hm).mp hr
    have hlink := decl?_linked hreg href b (hb ▸ hm)
    rw [he', hnames.2.1, Option.map_some] at hlink
    rw [Option.some.inj hlink, kind_linkDecl] at hek
    exact ⟨⟨hm.1, d, e, width, r, elem, hd, ht, hnames, hek⟩, hb⟩
  · rintro ⟨⟨-, d₁, e, width, r, elem, hd₁, hbody₁, hnames, hek⟩, hb⟩
    obtain rfl : d = d₁ := Option.some.inj (hd.symm.trans hd₁)
    obtain rfl : t = .node .ref width (some r) elem := Body.newtype.inj (ht.symm.trans hbody₁)
    have hlink := decl?_linked hreg href b (hb ▸ hm)
    rw [hnames.2.1, Option.map_some] at hlink
    have hinst : e.isInstantiable = true := Decl.isInstantiable_iff.mpr (Or.inr (Or.inr hek))
    refine ⟨⟨⟨width, r, elem, rfl, (target?_eq_some_iff hreg himp hm).mpr ⟨e, hnames, hinst⟩⟩,
      _, hlink, ?_⟩, hb, _, hlink, ?_⟩ <;> rw [kind_linkDecl, hek]

/-- A newtype that wraps another one is of its module or imports its
module. -/
theorem WrapsNewtype.module_eq_or_imports {a b : DeclId} (h : WrapsNewtype w ids a b) :
    b.module = a.module ∨ ImportsModule w ids a.module b.module := by
  obtain ⟨-, d, e, width, r, elem, -, -, ⟨hlook, -⟩, -⟩ := h
  rcases hlook with ⟨-, hb⟩ | ⟨-, m, n, hm, hn, x, hx, -, hp⟩
  · exact Or.inl hb
  · exact Or.inr ⟨m, n, hm, hn, x, hx, hp⟩

include hreg href in
/-- A newtype that wraps another one is among the newtypes of its linked
module. -/
theorem WrapsNewtype.mem_nodes {a b : DeclId} (h : WrapsNewtype w ids a b) :
    a.module ∈ order w ids ∧ a ∈ ((linked w ids).wrapGraph a.module).nodes := by
  obtain ⟨ha, d, e, width, r, elem, hd, hbody, -⟩ := h
  obtain ⟨m, hm⟩ : ∃ m, w[a.module]? = some m := by
    rw [Workspace.decl?] at hd
    cases hw : w[a.module]? with
    | none => simp [hw] at hd
    | some m => exact ⟨m, rfl⟩
  have hlink := decl?_linked hreg href a ⟨ha, hm⟩
  rw [hd, Option.map_some] at hlink
  refine ⟨(mem_order_iff hreg).mpr ⟨m, ha, hm⟩, mem_wrapGraph_iff.mpr ⟨rfl, _, hlink, ?_⟩⟩
  rw [kind_linkDecl, Decl.kind, hbody]
  rfl

include hreg himp href in
/-- **A circle of newtypes stays in one module.** A chain that left its
module could come back only over imports that go in a circle. -/
theorem transGen_step_of_wraps (hac : ∀ i, ¬ TransGen (ImportsModule w ids) i i) {a b : DeclId}
    (h : TransGen (WrapsNewtype w ids) a b)
    (hback : ReflTransGen (ImportsModule w ids) b.module a.module) :
    TransGen ((linked w ids).wrapGraph a.module).Step a b ∧ b.module = a.module := by
  induction h with
  | single hs =>
    rename_i c
    -- a step out of the module and the way back would be a circle of imports
    have hmod : c.module = a.module := by
      rcases hs.module_eq_or_imports with hc | hi
      · exact hc
      · exact absurd (TransGen.head' hi hback) (hac _)
    obtain ⟨hord, hmem⟩ := hs.mem_nodes hreg href
    exact ⟨TransGen.single ((step_wrapGraph_iff hreg himp href hmem hord).mpr ⟨hs, hmod⟩), hmod⟩
  | tail hab hs ih =>
    rename_i b c
    have hback' : ReflTransGen (ImportsModule w ids) b.module a.module := by
      rcases hs.module_eq_or_imports with hc | hi
      · rw [← hc]
        exact hback
      · exact ReflTransGen.head hi hback
    obtain ⟨hchain, hb⟩ := ih hback'
    have hmod : c.module = a.module := by
      rcases hs.module_eq_or_imports with hc | hi
      · rw [hc, hb]
      · rw [hb] at hi
        exact absurd (TransGen.head' hi hback) (hac _)
    obtain ⟨hord, hmem⟩ := hs.mem_nodes hreg href
    rw [hb] at hord hmem
    exact ⟨hchain.tail ((step_wrapGraph_iff hreg himp href hmem hord).mpr ⟨hs, hmod⟩), hmod⟩

include hreg himp href in
/-- **The newtype check passes** exactly when newtypes do not wrap each
other in circles, in whatever modules they are. -/
theorem newtypes_iff (hac : ∀ i, ¬ TransGen (ImportsModule w ids) i i) :
    (∀ i ∈ order w ids, recursionErrors (linked w ids) i = []) ↔
      ∀ a, ¬ TransGen (WrapsNewtype w ids) a a := by
  simp only [recursionErrors_eq_nil_iff]
  constructor
  · intro h a ha
    obtain ⟨hchain, -⟩ := transGen_step_of_wraps hreg himp href hac ha ReflTransGen.refl
    obtain ⟨c, hs, -⟩ := TransGen.head'_iff.mp ha
    obtain ⟨hord, hmem⟩ := hs.mem_nodes hreg href
    exact h a.module hord a hmem hchain
  · intro h i hi a ha hchain
    refine h a ?_
    -- every step of the chain starts at a newtype of the module
    have hsteps : ∀ {b}, TransGen ((linked w ids).wrapGraph i).Step a b →
        TransGen (WrapsNewtype w ids) a b := by
      intro b hb
      induction hb with
      | single hs => exact TransGen.single ((step_wrapGraph_iff hreg himp href ha hi).mp hs).1
      | tail hab hs ih =>
        have hmem := Digraph.mem_nodes_of_transGen hab
        exact ih.tail ((step_wrapGraph_iff hreg himp href hmem hi).mp hs).1
    exact hsteps hchain

end Registered

/-! ## Evaluation

Whether linking passes, and the workspace that it leaves, in a form that
evaluates: each module is inserted in its place, and a circle is known from
a walk that is as long as there are nodes. -/

namespace Linking

variable (w : Workspace) (ids : List Nat)

/-- The modules in the order of their paths, each inserted in its place. -/
def inserted : List Nat :=
  ((paths w ids).insertionSort fun x y => Text.le x.1 y.1 = true).map (·.2)

/-- The workspace with the imports of the inserted modules bound, and the
errors found. -/
def imported : Workspace × List CompileError :=
  bindAllImports w (paths w ids) (inserted w ids)

/-- The workspace with their references bound too, and the errors found. -/
def bound : Workspace × List CompileError :=
  bindAllRefs (imported w ids).1 (inserted w ids)

theorem order_eq_inserted : order w ids = inserted w ids :=
  congrArg (List.map _) (Text.sortByKey_eq_insertionSort nodup_paths)

theorem withImports_eq_imported : withImports w ids = (imported w ids).1 := by
  rw [withImports, order_eq_inserted, imported]

/-- **The linked workspace evaluates.** -/
theorem linked_eq_bound : linked w ids = (bound w ids).1 := by
  rw [linked, withImports_eq_imported, order_eq_inserted, bound]

theorem workspace_graph : (graph w ids).workspace = (bound w ids).1 := linked_eq_bound w ids

variable {w ids} in
/-- There is no import circle to report exactly when no walk over imports is
long. -/
theorem circles_iff_evaluates (hreg : (register w [] ids).2 = []) :
    cycleErrors (withImports w ids) (order w ids) = [] ↔ ∀ i ∈ inserted w ids,
      (importGraph (imported w ids).1 (inserted w ids)).hasWalk (inserted w ids).length i =
        false := by
  rw [← withImports_eq_imported, ← order_eq_inserted, cycleErrors_eq_nil_iff (nodup_order hreg)]
  exact Digraph.acyclic_iff_hasWalk (g := importGraph (withImports w ids) (order w ids))

/-- **Whether every step passes evaluates.** -/
theorem passes_iff_evaluates : Passes w ids ↔
    (register w [] ids).2 = [] ∧ (imported w ids).2 = [] ∧
      (∀ i ∈ inserted w ids,
        (importGraph (imported w ids).1 (inserted w ids)).hasWalk (inserted w ids).length i =
          false) ∧
      (∀ i ∈ inserted w ids, ((imported w ids).1[i]?).any (·.hasUnnamedRef) = false) ∧
      (bound w ids).2 = [] ∧
      ∀ i ∈ inserted w ids, ∀ d ∈ ((bound w ids).1.wrapGraph i).nodes,
        ((bound w ids).1.wrapGraph i).hasWalk ((bound w ids).1.wrapGraph i).nodes.length d =
          false := by
  constructor
  · rintro ⟨hreg, himp, hcir, hname, href, hnew⟩
    rw [circles_iff_evaluates hreg] at hcir
    rw [withImports_eq_imported, order_eq_inserted] at hname href
    rw [linked_eq_bound, order_eq_inserted] at hnew
    rw [order_eq_inserted] at himp
    exact ⟨hreg, himp, hcir, hname, href,
      fun i hi => Digraph.acyclic_iff_hasWalk.mp (recursionErrors_eq_nil_iff.mp (hnew i hi))⟩
  · rintro ⟨hreg, himp, hcir, hname, href, hnew⟩
    refine ⟨hreg, ?_, (circles_iff_evaluates hreg).mpr hcir, ?_, ?_, ?_⟩
    · rwa [order_eq_inserted]
    · rwa [withImports_eq_imported, order_eq_inserted]
    · rwa [withImports_eq_imported, order_eq_inserted]
    · rw [linked_eq_bound, order_eq_inserted]
      exact fun i hi => recursionErrors_eq_nil_iff.mpr (Digraph.acyclic_iff_hasWalk.mpr (hnew i hi))

instance : Decidable (Passes w ids) := decidable_of_iff _ (passes_iff_evaluates w ids).symm

end Linking

/-! ## Acceptance -/

/-- Every reference of the given modules has a name. -/
def NamedRefs (w : Workspace) (ids : List Nat) : Prop :=
  ∀ i m, Given w ids i m → ∀ d ∈ m.decls, ∀ x ∈ d.members, none ∉ x.2.refs

/-- **No reference without a name is met** exactly when every one has a
name. -/
theorem named_iff (hreg : (register w [] ids).2 = []) :
    (∀ i ∈ order w ids, ((withImports w ids)[i]?).any (·.hasUnnamedRef) = false) ↔
      NamedRefs w ids := by
  have hmodule : ∀ {i m}, Given w ids i m →
      (((withImports w ids)[i]?).any (·.hasUnnamedRef) = false ↔
        ∀ d ∈ m.decls, ∀ x ∈ d.members, none ∉ x.2.refs) := by
    intro i m hm
    rw [getElem?_withImports hreg hm, Option.any_some, Module.hasUnnamedRef]
    simp only [List.any_eq_false, List.any_eq_true, List.contains_iff_mem, not_exists, not_and]
    rfl
  constructor
  · intro h i m hm
    exact (hmodule hm).mp (h i ((mem_order_iff hreg).mpr ⟨m, hm⟩))
  · intro h i hi
    obtain ⟨m, hm⟩ := (mem_order_iff hreg).mp hi
    exact (hmodule hm).mpr (h i m hm)

/-- **The steps before references are bound** pass exactly on modules whose
imports can be bound. -/
theorem importable_iff : Importable w ids ↔ (register w [] ids).2 = [] ∧
    (bindAllImports w (paths w ids) (order w ids)).2 = [] ∧
    cycleErrors (withImports w ids) (order w ids) = [] := by
  constructor
  · intro h
    have hreg := registered_iff.mpr ⟨h.paths_distinct, h.valid⟩
    have himp := (imports_iff hreg).mpr fun i m hm =>
      ⟨fun x hx => ⟨h.imports_named i m hm x hx, h.imports_given i m hm x hx⟩,
        h.aliases_distinct i m hm⟩
    exact ⟨hreg, himp, (circles_iff hreg himp).mpr h.imports_acyclic⟩
  · rintro ⟨hreg, himp, hcir⟩
    have hi := (imports_iff hreg).mp himp
    exact {
      paths_distinct := (registered_iff.mp hreg).1
      valid := (registered_iff.mp hreg).2
      imports_named := fun i m hm x hx => ((hi i m hm).1 x hx).1
      imports_given := fun i m hm x hx => ((hi i m hm).1 x hx).2
      aliases_distinct := fun i m hm => (hi i m hm).2
      imports_acyclic := (circles_iff hreg himp).mp hcir }

theorem WellFormed.importable (h : WellFormed w ids) : Importable w ids :=
  ⟨h.paths_distinct, h.valid, h.imports_named, h.imports_given, h.aliases_distinct,
    h.imports_acyclic⟩

/-- **Every step passes exactly on well-formed modules** whose references
have names. -/
theorem passes_iff : Passes w ids ↔ WellFormed w ids ∧ NamedRefs w ids := by
  constructor
  · rintro ⟨hreg, himp, hcir, hname, href, hnew⟩
    have h := importable_iff.mpr ⟨hreg, himp, hcir⟩
    have hr := (references_iff hreg himp).mp href
    refine ⟨⟨h.paths_distinct, h.valid, h.imports_named, h.imports_given, h.aliases_distinct,
      h.imports_acyclic, ?_, ?_, ?_⟩, (named_iff hreg).mp hname⟩
    · exact fun i m hm d hd => (hr i m hm d hd).1
    · exact fun i m hm d hd => (hr i m hm d hd).2
    · exact (newtypes_iff hreg himp href h.imports_acyclic).mp hnew
  · rintro ⟨h, hname⟩
    obtain ⟨hreg, himp, hcir⟩ := importable_iff.mp h.importable
    have href := (references_iff hreg himp).mpr fun i m hm d hd =>
      ⟨h.bases i m hm d hd, h.references i m hm d hd⟩
    exact ⟨hreg, himp, hcir, (named_iff hreg).mpr hname, href,
      (newtypes_iff hreg himp href h.imports_acyclic).mpr h.newtypes_acyclic⟩

/-- **Linking accepts exactly the well-formed modules.** When every
reference has a name, linking gives a graph if and only if the modules
are well formed, and gives back errors if they are not. -/
theorem resolve_accepts_iff (hname : NamedRefs w ids) :
    ((∃ g, (resolve w ids).2 = .ok g) ↔ WellFormed w ids) ∧
      (¬ WellFormed w ids → ∃ es, es ≠ [] ∧ (resolve w ids).2 = .error (.errors es)) := by
  have hiff : Passes w ids ↔ WellFormed w ids := by
    rw [passes_iff]
    exact and_iff_left hname
  refine ⟨⟨?_, ?_⟩, ?_⟩
  · rintro ⟨g, hg⟩
    exact hiff.mp (passes_of_resolve hg).1
  · intro h
    rw [resolve_of_passes (hiff.mpr h)]
    exact ⟨_, rfl⟩
  · intro h
    rcases resolve_cases w ids with hp | ⟨hreg, ⟨i, hi, hun⟩, -⟩ | hes
    · exact absurd (hiff.mp hp) h
    · rw [(named_iff hreg).mpr hname i hi] at hun
      cases hun
    · exact hes

/-- The modules of the sample can be linked. -/
theorem Sample.resolve_modules :
    (resolve Sample.modules [0, 1]).2 = .ok (graph Sample.modules [0, 1]) :=
  resolve_eq_graph (by decide +kernel)

/-- So they are well formed. -/
theorem sample_wellFormed : WellFormed Sample.modules [0, 1] := by
  have hall : ∀ m ∈ Sample.modules, ∀ d ∈ m.decls, ∀ x ∈ d.members, none ∉ x.2.refs := by
    decide
  have hname : NamedRefs Sample.modules [0, 1] :=
    fun i m hm => hall m (List.mem_of_getElem? hm.2)
  exact (resolve_accepts_iff hname).1.mp ⟨_, Sample.resolve_modules⟩

end WireModel
