import WireModel.Link.Resolve
import WireModel.Proofs.Text.Entries
import WireModel.Proofs.Graph.Component

/-!
# The steps of linking

What every step of linking does to a workspace, and when it finds no
error. The statements are about one step at a time and about the
workspace that step is given; `WireModel.Proofs.Link.Accept` puts them
together.
-/

namespace WireModel

open Relation

variable {w : Workspace} {ids : List Nat} {known : List (Text × Nat)}

/-! ## Registering -/

/-- The first of some modules that has a path. -/
def firstAt (w : Workspace) (path : Text) (ids : List Nat) : Option Nat :=
  ids.find? fun i => (w[i]?).any (·.path == path)

theorem firstAt_cons_none {path : Text} {i : Nat} (h : w[i]? = none) :
    firstAt w path (i :: ids) = firstAt w path ids := by
  rw [firstAt, List.find?_cons_of_neg (by simp [h]), firstAt]

theorem firstAt_cons_of_eq {i : Nat} {m : Module} (h : w[i]? = some m) :
    firstAt w m.path (i :: ids) = some i := by
  rw [firstAt, List.find?_cons_of_pos (by simp [h])]

theorem firstAt_cons_of_ne {path : Text} {i : Nat} {m : Module} (h : w[i]? = some m)
    (hne : m.path ≠ path) : firstAt w path (i :: ids) = firstAt w path ids := by
  rw [firstAt, List.find?_cons_of_neg (by simp [h, hne]), firstAt]

/-- What has a path first is one of the modules and has it. -/
theorem of_firstAt {path : Text} {i : Nat} (h : firstAt w path ids = some i) :
    i ∈ ids ∧ ∃ m, w[i]? = some m ∧ m.path = path := by
  refine ⟨List.mem_of_find?_eq_some h, ?_⟩
  have hp := List.find?_some h
  cases hm : w[i]? with
  | none => simp [hm] at hp
  | some m => exact ⟨m, rfl, by simpa [hm] using hp⟩

/-! What registering one more module does: nothing if there is no such
module, nothing but a possible error if its path is known, and otherwise
the path gets known and the module is validated. -/

@[simp] theorem register_nil : register w known [] = (known, []) := rfl

theorem register_missing {i : Nat} (hm : w[i]? = none) :
    register w known (i :: ids) = register w known ids := by
  simp [register, hm]

theorem register_known {i prev : Nat} {m : Module} (hm : w[i]? = some m)
    (hk : Text.lookup? m.path known = some prev) :
    (register w known (i :: ids)).1 = (register w known ids).1 ∧
      ((register w known (i :: ids)).2 = [] ↔ prev = i ∧ (register w known ids).2 = []) := by
  by_cases hp : prev = i
  · simp [register, hm, hk, hp]
  · simp [register, hm, hk, hp]

theorem register_new {i : Nat} {m : Module} (hm : w[i]? = some m)
    (hk : Text.lookup? m.path known = none) :
    register w known (i :: ids) = ((register w (known ++ [(m.path, i)]) ids).1,
      m.errors ++ (register w (known ++ [(m.path, i)]) ids).2) := by
  simp [register, hm, hk]

/-- Looking up a path among the known ones and then among modules does
not change when a module with a new path moves from the latter to the
former. -/
theorem lookup?_or_firstAt_new {path : Text} {i : Nat} {m : Module} (hm : w[i]? = some m)
    (hk : Text.lookup? m.path known = none) :
    (Text.lookup? path (known ++ [(m.path, i)])).or (firstAt w path ids) =
      (Text.lookup? path known).or (firstAt w path (i :: ids)) := by
  rw [Text.lookup?_append]
  by_cases hp : m.path = path
  · rw [← hp, hk, firstAt_cons_of_eq hm, Text.lookup?_cons_self]
    rfl
  · rw [firstAt_cons_of_ne hm hp, Text.lookup?_cons_of_ne hp]
    simp

/-- Nor when a module is left out whose path is known. -/
theorem lookup?_or_firstAt_known {path : Text} {i prev : Nat} {m : Module} (hm : w[i]? = some m)
    (hk : Text.lookup? m.path known = some prev) :
    (Text.lookup? path known).or (firstAt w path ids) =
      (Text.lookup? path known).or (firstAt w path (i :: ids)) := by
  by_cases hp : m.path = path
  · rw [← hp, hk]
    rfl
  · rw [firstAt_cons_of_ne hm hp]

/-- **A path stands for the first module given with it.** -/
theorem lookup?_register (path : Text) :
    Text.lookup? path (register w known ids).1 =
      (Text.lookup? path known).or (firstAt w path ids) := by
  induction ids generalizing known with
  | nil => simp [firstAt]
  | cons i ids ih =>
    cases hm : w[i]? with
    | none => rw [register_missing hm, ih, firstAt_cons_none hm]
    | some m =>
      cases hk : Text.lookup? m.path known with
      | some prev => rw [(register_known hm hk).1, ih, lookup?_or_firstAt_known hm hk]
      | none => rw [register_new hm hk, ih, lookup?_or_firstAt_new hm hk]

/-- No path is registered twice. -/
theorem nodup_register (hnd : (known.map (·.1)).Nodup) :
    ((register w known ids).1.map (·.1)).Nodup := by
  induction ids generalizing known with
  | nil => simpa using hnd
  | cons i ids ih =>
    cases hm : w[i]? with
    | none => rw [register_missing hm]; exact ih hnd
    | some m =>
      cases hk : Text.lookup? m.path known with
      | some prev => rw [(register_known hm hk).1]; exact ih hnd
      | none =>
        rw [register_new hm hk]
        refine ih ?_
        rw [List.map_append, List.nodup_append]
        refine ⟨hnd, by simp, ?_⟩
        rintro a ha b hb rfl
        obtain rfl : a = m.path := by simpa using hb
        exact Text.lookup?_eq_none_iff.mp hk ha

/-- **Registering finds no error** exactly when every module is the one
its path stands for and, unless its path was known before, is valid. -/
theorem register_errors_eq_nil_iff :
    (register w known ids).2 = [] ↔ ∀ i ∈ ids, ∀ m, w[i]? = some m →
      (Text.lookup? m.path known).or (firstAt w m.path ids) = some i ∧
        (Text.lookup? m.path known = none → m.errors = []) := by
  induction ids generalizing known with
  | nil => simp
  | cons i ids ih =>
    rw [List.forall_mem_cons]
    cases hm : w[i]? with
    | none =>
      rw [register_missing hm, ih]
      simp only [firstAt_cons_none hm, reduceCtorEq, false_implies, implies_true, true_and]
    | some m =>
      cases hk : Text.lookup? m.path known with
      | some prev =>
        rw [(register_known hm hk).2, ih]
        refine and_congr (by simp [hk]) ?_
        refine forall₂_congr fun j hj => forall₂_congr fun n hn => ?_
        rw [lookup?_or_firstAt_known hm hk]
      | none =>
        rw [register_new hm hk, List.append_eq_nil_iff, ih]
        constructor
        · rintro ⟨hvalid, h⟩
          refine ⟨by simp [hk, firstAt_cons_of_eq hm, hvalid], fun j hj n hn => ?_⟩
          obtain ⟨hfirst, hn_valid⟩ := h j hj n hn
          rw [lookup?_or_firstAt_new hm hk] at hfirst
          refine ⟨hfirst, fun hnone => ?_⟩
          by_cases hp : m.path = n.path
          · -- a module with the path of `m` that its path stands for is `m`
            rw [← hp, hk, firstAt_cons_of_eq hm] at hfirst
            obtain rfl : i = j := by simpa using hfirst
            obtain rfl : m = n := Option.some.inj (hm.symm.trans hn)
            exact hvalid
          · refine hn_valid ?_
            rw [Text.lookup?_append, hnone, Text.lookup?_cons_of_ne hp]
            rfl
        · rintro ⟨hfst, h⟩
          refine ⟨(hfst m rfl).2 hk, fun j hj n hn => ?_⟩
          obtain ⟨hfirst, hn_valid⟩ := h j hj n hn
          rw [lookup?_or_firstAt_new hm hk]
          refine ⟨hfirst, fun hnone => hn_valid ?_⟩
          rw [Text.lookup?_append] at hnone
          exact (Option.or_eq_none_iff.mp hnone).1

/-! ## Binding imports -/

section Imports

variable {module : Text} {aliases : List (Text × Text)} {i : Import} {is : List Import}

/-- **One import can be bound**: it has an alias, the alias stands for no
other path, and the path is known. -/
def Bindable (known : List (Text × Nat)) (aliases : List (Text × Text)) (i : Import) : Prop :=
  i.ns ≠ [] ∧ (∀ p, Text.lookup? i.ns aliases = some p → p = i.path) ∧
    (Text.lookup? i.path known).isSome

/-- A bindable import is bound to what its path stands for. -/
theorem bindImports_cons (h : Bindable known aliases i) :
    bindImports module known aliases (i :: is) =
      ({ i with bound := Text.lookup? i.path known } ::
          (bindImports module known ((i.ns, i.path) :: aliases) is).1,
        (bindImports module known ((i.ns, i.path) :: aliases) is).2) := by
  obtain ⟨hns, halias, hknown⟩ := h
  have hfilter : (Text.lookup? i.ns aliases).filter (· != i.path) = none := by
    rw [Option.filter_eq_none_iff]
    intro p hp
    simp [halias p hp]
  obtain ⟨dep, hdep⟩ := Option.isSome_iff_exists.mp hknown
  rw [bindImports]
  simp [hns, hfilter, hdep]

/-- And one that cannot be bound is an error. -/
theorem bindable_of_errors_eq_nil
    (h : (bindImports module known aliases (i :: is)).2 = []) : Bindable known aliases i := by
  rw [bindImports] at h
  by_cases hns : i.ns = []
  · simp [hns] at h
  · cases hf : (Text.lookup? i.ns aliases).filter (· != i.path) with
    | some p => simp [hns, hf] at h
    | none =>
      cases hk : Text.lookup? i.path known with
      | none => simp [hns, hf, hk] at h
      | some dep =>
        refine ⟨hns, fun p hp => ?_, by simp [hk]⟩
        rw [Option.filter_eq_none_iff] at hf
        simpa using hf p hp

/-- After an import is bound, another one can be bound if it could be
before and does not give the alias another path. -/
theorem bindable_cons_iff {j : Import} (hi : Bindable known aliases i) :
    Bindable known ((i.ns, i.path) :: aliases) j ↔
      Bindable known aliases j ∧ (i.ns = j.ns → i.path = j.path) := by
  obtain ⟨-, halias, -⟩ := hi
  by_cases hij : i.ns = j.ns
  · have hlookup : Text.lookup? j.ns ((i.ns, i.path) :: aliases) = some i.path := by
      rw [← hij, Text.lookup?_cons_self]
    constructor
    · rintro ⟨hns, hal, hkn⟩
      have hp : i.path = j.path := hal _ hlookup
      refine ⟨⟨hns, fun p h => ?_, hkn⟩, fun _ => hp⟩
      rw [← hp]
      exact halias p (hij ▸ h)
    · rintro ⟨⟨hns, -, hkn⟩, hp⟩
      refine ⟨hns, fun p h => ?_, hkn⟩
      rw [hlookup] at h
      rw [← Option.some.inj h]
      exact hp hij
  · have hlookup : Text.lookup? j.ns ((i.ns, i.path) :: aliases) = Text.lookup? j.ns aliases :=
      Text.lookup?_cons_of_ne hij
    simp only [Bindable, hlookup, hij, false_implies, and_true]

/-- **Binding the imports of a module finds no error** exactly when each
has an alias and a known path, and no alias stands for two paths. -/
theorem bindImports_errors_eq_nil_iff :
    (bindImports module known aliases is).2 = [] ↔
      (∀ i ∈ is, Bindable known aliases i) ∧
        ∀ i ∈ is, ∀ j ∈ is, i.ns = j.ns → i.path = j.path := by
  induction is generalizing aliases with
  | nil => simp [bindImports]
  | cons i is ih =>
    constructor
    · intro h
      have hi : Bindable known aliases i := bindable_of_errors_eq_nil h
      rw [bindImports_cons hi] at h
      obtain ⟨hbind, hagree⟩ := ih.mp h
      have hother : ∀ j ∈ is, Bindable known aliases j ∧ (i.ns = j.ns → i.path = j.path) :=
        fun j hj => (bindable_cons_iff hi).mp (hbind j hj)
      refine ⟨List.forall_mem_cons.mpr ⟨hi, fun j hj => (hother j hj).1⟩, ?_⟩
      intro a ha b hb hab
      rcases List.mem_cons.mp ha with rfl | ha' <;> rcases List.mem_cons.mp hb with rfl | hb'
      · rfl
      · exact (hother b hb').2 hab
      · exact ((hother a ha').2 hab.symm).symm
      · exact hagree a ha' b hb' hab
    · rintro ⟨hbind, hagree⟩
      have hi : Bindable known aliases i := hbind i (List.mem_cons_self ..)
      rw [bindImports_cons hi]
      refine ih.mpr ⟨fun j hj => (bindable_cons_iff hi).mpr ⟨?_, ?_⟩, fun a ha b hb => ?_⟩
      · exact hbind j (List.mem_cons_of_mem i hj)
      · exact hagree i (List.mem_cons_self ..) j (List.mem_cons_of_mem i hj)
      · exact hagree a (List.mem_cons_of_mem i ha) b (List.mem_cons_of_mem i hb)

/-- **Then every import is bound to what its path stands for.** -/
theorem bindImports_eq_map (h : (bindImports module known aliases is).2 = []) :
    (bindImports module known aliases is).1 =
      is.map fun i => { i with bound := Text.lookup? i.path known } := by
  induction is generalizing aliases with
  | nil => rfl
  | cons i is ih =>
    have hi := bindable_of_errors_eq_nil h
    rw [bindImports_cons hi] at h ⊢
    rw [List.map_cons, ih h]

end Imports

/-- A module with its imports bound. -/
def Module.bindImports (known : List (Text × Nat)) (m : Module) : Module :=
  { m with imports := (WireModel.bindImports m.name known [] m.imports).1 }

/-- The errors of the imports of a module. -/
def Module.importErrors (known : List (Text × Nat)) (m : Module) : List CompileError :=
  (WireModel.bindImports m.name known [] m.imports).2

/-- A workspace in which a module is replaced. -/
theorem Workspace.getElem?_update {i j : Nat} {f : Module → Module} :
    (w.update i f)[j]? = if i = j then (w[j]?).map f else w[j]? := by
  rw [Workspace.update, List.getElem?_modify]
  split <;> simp

/-- One module more with its imports bound, and its errors after those
there were. -/
def importStep (known : List (Text × Nat)) (s : Workspace × List CompileError) (i : Nat) :
    Workspace × List CompileError :=
  match s.1[i]? with
  | none => s
  | some m =>
    (s.1.update i fun n => { n with imports := (m.bindImports known).imports },
      s.2 ++ m.importErrors known)

theorem bindAllImports_eq_foldl :
    bindAllImports w known ids = ids.foldl (importStep known) (w, []) := rfl

/-- **Binding the imports of modules binds them in each one**, and
collects their errors. Every module is looked at once, so what one step
does to the workspace is not seen by a later one. -/
theorem foldl_importStep (hnd : ids.Nodup) (errs : List CompileError) :
    (∀ j, (ids.foldl (importStep known) (w, errs)).1[j]? =
        if j ∈ ids then (w[j]?).map (·.bindImports known) else w[j]?) ∧
      (ids.foldl (importStep known) (w, errs)).2 =
        errs ++ ids.flatMap fun i => ((w[i]?).map (·.importErrors known)).getD [] := by
  induction ids generalizing w errs with
  | nil => simp
  | cons i ids ih =>
    obtain ⟨hi, hnd⟩ := List.nodup_cons.mp hnd
    rw [List.foldl_cons]
    cases hm : w[i]? with
    | none =>
      have hstep : importStep known (w, errs) i = (w, errs) := by simp [importStep, hm]
      obtain ⟨hw, he⟩ := ih (w := w) hnd errs
      rw [hstep]
      refine ⟨fun j => ?_, by rw [he]; simp [hm]⟩
      rw [hw]
      by_cases hj : j = i
      · simp [hj, hm]
      · simp [hj]
    | some m =>
      have hstep : importStep known (w, errs) i =
          (w.update i fun n => { n with imports := (m.bindImports known).imports },
            errs ++ m.importErrors known) := by
        simp [importStep, hm]
      rw [hstep]
      obtain ⟨hw, he⟩ := ih (w := w.update i fun n =>
        { n with imports := (m.bindImports known).imports }) hnd (errs ++ m.importErrors known)
      refine ⟨fun j => ?_, ?_⟩
      · rw [hw, Workspace.getElem?_update]
        by_cases hj : i = j
        · subst hj
          simp [hi, hm, Module.bindImports]
        · simp [hj, Ne.symm hj]
      · rw [he, List.flatMap_cons, hm, List.append_assoc]
        refine congrArg (errs ++ ·) (congrArg₂ (· ++ ·) rfl ?_)
        refine List.flatMap_congr fun j hj => ?_
        -- the modules after `i` are others, so they are still as they were
        have hij : i ≠ j := fun h => hi (h ▸ hj)
        rw [Workspace.getElem?_update, if_neg hij]

theorem getElem?_bindAllImports (hnd : ids.Nodup) (j : Nat) :
    (bindAllImports w known ids).1[j]? =
      if j ∈ ids then (w[j]?).map (·.bindImports known) else w[j]? :=
  (foldl_importStep hnd []).1 j

theorem errors_bindAllImports (hnd : ids.Nodup) : (bindAllImports w known ids).2 =
    ids.flatMap fun i => ((w[i]?).map (·.importErrors known)).getD [] := by
  rw [bindAllImports_eq_foldl, (foldl_importStep hnd []).2, List.nil_append]

/-- Binding the imports of modules finds no error exactly when no module
has one. -/
theorem bindAllImports_errors_eq_nil_iff (hnd : ids.Nodup) :
    (bindAllImports w known ids).2 = [] ↔
      ∀ i ∈ ids, ∀ m, w[i]? = some m → m.importErrors known = [] := by
  rw [errors_bindAllImports hnd, List.flatMap_eq_nil_iff]
  refine forall₂_congr fun i _ => ?_
  cases w[i]? <;> simp

/-! ## Import circles -/

/-- **There is no import circle to report** exactly when no module
reaches itself over its imports. -/
theorem cycleErrors_eq_nil_iff (hnd : ids.Nodup) :
    cycleErrors w ids = [] ↔ ∀ i ∈ ids, ¬ TransGen (importGraph w ids).Step i i := by
  rw [cycleErrors, List.map_eq_nil_iff]
  exact Digraph.filter_isCyclic_eq_nil_iff (g := importGraph w ids) hnd

/-! ## Binding references -/

namespace TypeExpr

/-- The type with its references bound by a function. -/
def bindRefs (target : Ref → Option DeclId) : TypeExpr → TypeExpr
  | missing => missing
  | node .ref width (some r) elem =>
    node .ref width (some { r with target := target r }) (elem.bindRefs target)
  | node k width r elem => node k width r (elem.bindRefs target)

/-! What binding does to a node that is no reference, and what its
references are. -/

variable {k : Kind} {width : Int} {r : Option Ref} {elem : TypeExpr}

theorem refs_node_of_ne (hk : k ≠ .ref) : (node k width r elem).refs = elem.refs := by
  rw [refs]
  exact hk

theorem bindRefs_node_of_ne {target : Ref → Option DeclId} (hk : k ≠ .ref) :
    (node k width r elem).bindRefs target = node k width r (elem.bindRefs target) := by
  rw [bindRefs]
  exact fun _ h => absurd h hk

theorem bindType_node_of_ne {find : Ref → Except CompileError DeclId} (hk : k ≠ .ref) :
    bindType find (node k width r elem) =
      (node k width r (bindType find elem).1, (bindType find elem).2) := by
  cases k <;> first | rfl | exact absurd rfl hk

/-- What binds a reference by what is written in it binds a bound type as
the one that was written. -/
theorem bindRefs_bindRefs {f g : Ref → Option DeclId} {t : TypeExpr}
    (h : ∀ r x, g { r with target := x } = g r) : (t.bindRefs f).bindRefs g = t.bindRefs g := by
  induction t with
  | missing => rfl
  | node k width r elem ih =>
    by_cases hk : k = .ref
    · subst hk
      cases r <;> simp [bindRefs, ih, h]
    · rw [bindRefs_node_of_ne hk, bindRefs_node_of_ne hk, bindRefs_node_of_ne hk, ih]

end TypeExpr

/-! What replacing the types of a declaration does to what is read off
it. -/

namespace Decl

variable {f g : TypeExpr → TypeExpr} {d : Decl}

theorem kind_mapTypes : (d.mapTypes f).kind = d.kind := by
  simp only [mapTypes, kind]
  cases d.body <;> rfl

theorem fields_mapTypes :
    (d.mapTypes f).fields = d.fields.map fun x => { x with type := f x.type } := by
  simp only [mapTypes, fields]
  cases d.body <;> rfl

theorem members_mapTypes : (d.mapTypes f).members = d.members.map fun x => (x.1, f x.2) := by
  simp only [mapTypes, members]
  cases d.body <;> simp

theorem mapTypes_mapTypes : (d.mapTypes f).mapTypes g = d.mapTypes (g ∘ f) := by
  simp only [mapTypes]
  cases d.body <;> simp

end Decl

/-- **Binding a type finds no error** exactly when every reference in it
is found. -/
theorem bindType_errors_eq_nil_iff {find : Ref → Except CompileError DeclId} {t : TypeExpr} :
    (bindType find t).2 = [] ↔ ∀ r, some r ∈ t.refs → ∃ d, find r = .ok d := by
  induction t with
  | missing => simp [bindType, TypeExpr.refs]
  | node k width ref elem ih =>
    by_cases hk : k = .ref
    · subst hk
      cases ref with
      | none => simp [bindType, TypeExpr.refs, ih]
      | some r =>
        cases hf : find r with
        | ok d => simp [bindType, TypeExpr.refs, ih, hf]
        | error e => simp [bindType, TypeExpr.refs, hf]
    · rw [TypeExpr.bindType_node_of_ne hk, TypeExpr.refs_node_of_ne hk]
      exact ih

/-- **Then every reference is bound to what was found.** -/
theorem bindType_eq_bindRefs {find : Ref → Except CompileError DeclId} {t : TypeExpr}
    (h : (bindType find t).2 = []) :
    (bindType find t).1 = t.bindRefs fun r => (find r).toOption := by
  induction t with
  | missing => rfl
  | node k width ref elem ih =>
    by_cases hk : k = .ref
    · subst hk
      cases ref with
      | none =>
        have he : (bindType find elem).2 = [] := by simpa [bindType] using h
        simp [bindType, TypeExpr.bindRefs, ih he]
      | some r =>
        cases hf : find r with
        | ok d =>
          have he : (bindType find elem).2 = [] := by simpa [bindType, hf] using h
          simp [bindType, TypeExpr.bindRefs, hf, ih he, Except.toOption]
        | error e => simp [bindType, hf] at h
    · rw [TypeExpr.bindType_node_of_ne hk] at h ⊢
      rw [TypeExpr.bindRefs_node_of_ne hk, ih h]

/-- The declaration a reference of a module stands for. -/
def Workspace.target? (w : Workspace) (m : Module) (self : Nat) (r : Ref) : Option DeclId := do
  let scope ← scopeOf m self r
  let s ← w[scope]?
  let i ← s.find? r.name
  let d ← s.decls[i]?
  if d.isInstantiable then some ⟨scope, i⟩ else none

theorem toOption_findTarget {m : Module} {self : Nat} {decl field : Text} {r : Ref} :
    (findTarget w m self decl field r).toOption = w.target? m self r := by
  rw [findTarget, findTargetBy, Workspace.target?]
  cases scopeOf m self r with
  | none => rfl
  | some scope =>
    cases hs : w[scope]? with
    | none => simp [hs, Except.toOption]
    | some s =>
      cases hi : s.find? r.name with
      | none => simp [hs, hi, Except.toOption]
      | some i =>
        cases hd : s.decls[i]? with
        | none => simp [hs, hi, hd, Except.toOption]
        | some d =>
          by_cases hinst : d.isInstantiable = true
          · simp [hs, hi, hd, hinst, Except.toOption]
          · simp [hs, hi, hd, hinst, Except.toOption]

/-- A result is there exactly when it is not an error. -/
theorem exists_ok_iff_isSome {ε β : Type} {e : Except ε β} :
    (∃ x, e = .ok x) ↔ e.toOption.isSome := by
  cases e <;> simp [Except.toOption]

/-! ## Extended declarations -/

/-- No name is repeated exactly when the names are distinct and new. -/
theorem firstRepeated_eq_none_iff {seen ns : List Text} :
    bindBase.firstRepeated seen ns = none ↔ ns.Nodup ∧ ∀ n ∈ ns, n ∉ seen := by
  induction ns generalizing seen with
  | nil => simp [bindBase.firstRepeated]
  | cons n ns ih =>
    by_cases hn : n ∈ seen
    · simp [bindBase.firstRepeated, hn]
    · rw [bindBase.firstRepeated, if_neg (by simpa using hn), ih, List.nodup_cons]
      constructor
      · rintro ⟨hnd, hnew⟩
        refine ⟨⟨fun h => hnew n h (List.mem_cons_self ..), hnd⟩, ?_⟩
        rintro x hx
        rcases List.mem_cons.mp hx with rfl | hx
        · exact hn
        · exact fun h => hnew x hx (List.mem_cons_of_mem n h)
      · rintro ⟨⟨hnot, hnd⟩, hnew⟩
        refine ⟨hnd, fun x hx h => ?_⟩
        rcases List.mem_cons.mp h with rfl | h
        · exact hnot hx
        · exact hnew x (List.mem_cons_of_mem n hx) h

section Base

variable {m : Module} {self : Nat} {d : Decl}

/-- **A declaration's base is in order**: it names none, or a virtual
struct of its module that shares no field name with it. -/
def BaseOk (w : Workspace) (m : Module) (self : Nat) (d : Decl) : Prop :=
  d.extend = [] ∨ ∃ i b, m.find? d.extend = some i ∧ m.decls[i]? = some b ∧ b.kind = .virtual ∧
    ((w.allFields { d with base := some ⟨self, i⟩ }).map (·.name)).Nodup

theorem bindBase_errors_eq_nil_iff : (bindBase w m self d).2 = [] ↔ BaseOk w m self d := by
  rw [bindBase, bindBaseBy, BaseOk]
  by_cases hext : d.extend = []
  · simp [hext]
  · simp only [beq_iff_eq, hext, if_false, false_or]
    cases hi : m.find? d.extend with
    | none => simp
    | some i =>
      cases hb : m.decls[i]? with
      | none => simp [hb]
      | some b =>
        simp only [Option.bind_some, hb, Option.map_some, Option.some.injEq]
        by_cases hv : b.kind = .virtual
        · simp only [hv, bne_self_eq_false, Bool.false_eq_true, if_false]
          cases hr : bindBase.firstRepeated []
              ((w.allFields { d with base := some ⟨self, i⟩ }).map (·.name)) with
          | none =>
            have hnd := (firstRepeated_eq_none_iff.mp hr).1
            simp only [true_iff]
            exact ⟨i, b, rfl, hb, hv, hnd⟩
          | some n =>
            simp only [List.cons_ne_nil, false_iff]
            rintro ⟨j, c, rfl, -, -, hnd⟩
            have := firstRepeated_eq_none_iff.mpr ⟨hnd, fun n _ => List.not_mem_nil⟩
            rw [hr] at this
            cases this
        · simp only [bne_iff_ne, ne_eq, hv, not_false_eq_true, if_true, List.cons_ne_nil, false_iff]
          rintro ⟨j, c, rfl, hc, hcv, -⟩
          rw [hb] at hc
          exact hv (Option.some.inj hc ▸ hcv)

/-- **Then the base is what its name stands for.** -/
theorem bindBase_eq (h : BaseOk w m self d) :
    (bindBase w m self d).1 =
      if d.extend = [] then d.base else (m.find? d.extend).map fun i => ⟨self, i⟩ := by
  rw [bindBase, bindBaseBy]
  by_cases hext : d.extend = []
  · simp [hext]
  · obtain ⟨i, b, hi, hb, hv, hnd⟩ := h.resolve_left hext
    have hr := firstRepeated_eq_none_iff.mpr ⟨hnd, fun n _ => List.not_mem_nil⟩
    simp [hext, hi, hb, hv, hr]

end Base

/-! ## Whole declarations -/

section Decls

variable {m : Module} {self : Nat} {d : Decl}

/-- A declaration with all its references bound. -/
def linkDecl (w : Workspace) (m : Module) (self : Nat) (d : Decl) : Decl :=
  { d.mapTypes (·.bindRefs (w.target? m self)) with base := (bindBase w m self d).1 }

/-- **Binding a declaration finds no error** exactly when its base is in
order and every reference of its members is found. -/
theorem bindDecl_errors_eq_nil_iff :
    (bindDecl w m self d).2 = [] ↔ BaseOk w m self d ∧
      ∀ x ∈ d.members, ∀ r, some r ∈ x.2.refs → (w.target? m self r).isSome := by
  have he : (bindDecl w m self d).2 = (bindBase w m self d).2 ++
      d.members.flatMap fun x => (bindType (findTarget w m self d.name x.1) x.2).2 := rfl
  rw [he, List.append_eq_nil_iff, bindBase_errors_eq_nil_iff, List.flatMap_eq_nil_iff]
  refine and_congr_right fun _ => forall₂_congr fun x _ => ?_
  rw [bindType_errors_eq_nil_iff]
  refine forall₂_congr fun r _ => ?_
  rw [exists_ok_iff_isSome, toOption_findTarget]

/-- **Then it is the declaration with all its references bound.** -/
theorem bindDecl_eq (h : (bindDecl w m self d).2 = []) :
    (bindDecl w m self d).1 = linkDecl w m self d := by
  have hx : ∀ x ∈ d.members, (bindType (findTargetBy Module.find? w m self d.name x.1) x.2).1 =
      x.2.bindRefs (w.target? m self) := by
    intro x hx
    have herr : (bindType (findTargetBy Module.find? w m self d.name x.1) x.2).2 = [] := by
      have he : (bindBase w m self d).2 ++
          (d.members.flatMap fun x => (bindType (findTarget w m self d.name x.1) x.2).2) = [] := h
      exact List.flatMap_eq_nil_iff.mp (List.append_eq_nil_iff.mp he).2 x hx
    rw [bindType_eq_bindRefs herr]
    exact congrArg (fun f => x.2.bindRefs f) (funext fun r => toOption_findTarget)
  have hbody : (bindDecl w m self d).1.body =
      (d.mapTypes (·.bindRefs (w.target? m self))).body := by
    rw [Decl.members] at hx
    rw [bindDecl, bindDeclBy, Decl.mapTypes]
    cases hb : d.body with
    | struct fs =>
      rw [hb] at hx
      refine congrArg Body.struct (List.map_congr_left fun f hf => ?_)
      rw [hx (f.name, f.type) (List.mem_map_of_mem hf)]
    | virtual fs =>
      rw [hb] at hx
      refine congrArg Body.virtual (List.map_congr_left fun f hf => ?_)
      rw [hx (f.name, f.type) (List.mem_map_of_mem hf)]
    | union vs tag payload =>
      rw [hb] at hx
      refine congrArg (Body.union · tag payload) (List.map_congr_left fun v hv => ?_)
      rw [hx (v.name, v.payload) (List.mem_map_of_mem hv)]
    | newtype t =>
      rw [hb] at hx
      exact congrArg Body.newtype (hx ([], t) (List.mem_singleton.mpr rfl))
    | consts t cs => rfl
    | unknown n => rfl
  calc (bindDecl w m self d).1
      = { d with base := (bindBase w m self d).1, body := (bindDecl w m self d).1.body } := rfl
    _ = linkDecl w m self d := by rw [hbody]; rfl

end Decls

/-- A module with all its references bound. -/
def linkModule (w : Workspace) (self : Nat) (m : Module) : Module :=
  { m with decls := m.decls.map (linkDecl w m self) }

/-- The declarations of a module as a step of binding leaves them, with
their errors. -/
def boundDecls (w : Workspace) (i : Nat) : Option (Nat × List (Decl × List CompileError)) :=
  (w[i]?).map fun m => (i, m.decls.map (bindDecl w m i))

/-- Putting bound declarations into a workspace changes just their
modules. -/
theorem getElem?_foldl_boundDecls {w₀ : Workspace} (hnd : ids.Nodup) (j : Nat) :
    ((ids.filterMap (boundDecls w₀)).foldl
        (fun w (id, ds) => w.update id fun m => { m with decls := ds.map (·.1) }) w)[j]? =
      if j ∈ ids then
        match w₀[j]? with
        | none => w[j]?
        | some m₀ => (w[j]?).map fun m =>
          { m with decls := (m₀.decls.map (bindDecl w₀ m₀ j)).map (·.1) }
      else w[j]? := by
  induction ids generalizing w with
  | nil => simp
  | cons i ids ih =>
    obtain ⟨hi, hnd⟩ := List.nodup_cons.mp hnd
    cases hm : w₀[i]? with
    | none =>
      have hb : boundDecls w₀ i = none := by simp [boundDecls, hm]
      rw [List.filterMap_cons_none hb, ih hnd]
      by_cases hj : j = i
      · simp [hj, hi, hm]
      · simp [hj]
    | some m₀ =>
      have hb : boundDecls w₀ i = some (i, m₀.decls.map (bindDecl w₀ m₀ i)) := by
        simp [boundDecls, hm]
      rw [List.filterMap_cons_some hb, List.foldl_cons, ih hnd, Workspace.getElem?_update]
      by_cases hj : i = j
      · subst hj
        simp [hi, hm]
      · simp [hj, Ne.symm hj]

/-- **Binding the references of modules finds no error** exactly when no
declaration has one. -/
theorem bindAllRefs_errors_eq_nil_iff :
    (bindAllRefs w ids).2 = [] ↔ ∀ i ∈ ids, ∀ m, w[i]? = some m → ∀ d ∈ m.decls,
      (bindDecl w m i d).2 = [] := by
  have he : (bindAllRefs w ids).2 =
      (ids.filterMap (boundDecls w)).flatMap fun x => x.2.flatMap (·.2) := rfl
  rw [he, List.flatMap_eq_nil_iff]
  constructor
  · intro h i hi m hm d hd
    have hmem : (i, m.decls.map (bindDecl w m i)) ∈ ids.filterMap (boundDecls w) :=
      List.mem_filterMap.mpr ⟨i, hi, by simp [boundDecls, hm]⟩
    exact List.flatMap_eq_nil_iff.mp (h _ hmem) _ (List.mem_map_of_mem hd)
  · intro h x hx
    obtain ⟨i, hi, hb⟩ := List.mem_filterMap.mp hx
    obtain ⟨m, hm, rfl⟩ := Option.map_eq_some_iff.mp hb
    refine List.flatMap_eq_nil_iff.mpr fun y hy => ?_
    obtain ⟨d, hd, rfl⟩ := List.mem_map.mp hy
    exact h i hi m hm d hd

/-- Binding references replaces each declaration of the modules by the
bound one. -/
theorem getElem?_bindAllRefs_map (hnd : ids.Nodup) (j : Nat) :
    (bindAllRefs w ids).1[j]? = if j ∈ ids then (w[j]?).map fun m =>
      { m with decls := m.decls.map fun d => (bindDecl w m j d).1 } else w[j]? := by
  have hw : (bindAllRefs w ids).1 = (ids.filterMap (boundDecls w)).foldl
      (fun w (id, ds) => w.update id fun m => { m with decls := ds.map (·.1) }) w := rfl
  rw [hw, getElem?_foldl_boundDecls hnd]
  by_cases hj : j ∈ ids
  · rw [if_pos hj, if_pos hj]
    cases w[j]? with
    | none => rfl
    | some m =>
      simp only [Option.map_some, List.map_map]
      rfl
  · rw [if_neg hj, if_neg hj]

/-- **Then all references of the modules are bound.** -/
theorem getElem?_bindAllRefs (hnd : ids.Nodup) (h : (bindAllRefs w ids).2 = []) (j : Nat) :
    (bindAllRefs w ids).1[j]? = if j ∈ ids then (w[j]?).map (linkModule w j) else w[j]? := by
  rw [getElem?_bindAllRefs_map hnd]
  by_cases hj : j ∈ ids
  · rw [if_pos hj, if_pos hj]
    cases hm : w[j]? with
    | none => rfl
    | some m =>
      refine congrArg some (congrArg (fun ds => { m with decls := ds }) ?_)
      refine List.map_congr_left fun d hd => ?_
      exact bindDecl_eq (bindAllRefs_errors_eq_nil_iff.mp h j hj m hm d hd)
  · rw [if_neg hj, if_neg hj]

/-! ## Newtypes -/

/-- The places of a module are those of its declarations. -/
theorem mem_declIds_iff {u : Workspace} {i : Nat} {id : DeclId} :
    id ∈ u.declIds i ↔ id.module = i ∧ ∃ d, u.decl? id = some d := by
  obtain ⟨j, k⟩ := id
  simp only [Workspace.declIds, Workspace.decl?]
  cases hm : u[i]? with
  | none =>
    simp only [List.not_mem_nil, false_iff]
    rintro ⟨rfl, d, hd⟩
    simp [hm] at hd
  | some m =>
    simp only [List.mem_map, List.mem_range, DeclId.mk.injEq]
    constructor
    · rintro ⟨k', hk', rfl, rfl⟩
      exact ⟨rfl, by simp [hm, hk']⟩
    · rintro ⟨rfl, d, hd⟩
      simp only [hm] at hd
      exact ⟨k, (List.getElem?_eq_some_iff.mp hd).1, rfl, rfl⟩

/-- A module's places are listed once. -/
theorem nodup_declIds {m : Nat} : (w.declIds m).Nodup := by
  rw [Workspace.declIds]
  split
  · refine List.nodup_range.map fun a b h => ?_
    simpa using h
  · exact List.nodup_nil

/-- **No circle of newtypes is reported in a module** exactly when none of
its newtypes reaches itself. -/
theorem recursionErrors_eq_nil_iff {m : Nat} :
    recursionErrors w m = [] ↔
      ∀ d ∈ (w.wrapGraph m).nodes, ¬ TransGen (w.wrapGraph m).Step d d := by
  have hnd : (w.wrapGraph m).nodes.Nodup := nodup_declIds.filter _
  rw [recursionErrors, Option.toList_eq_nil_iff, Option.map_eq_none_iff, List.find?_eq_none,
    ← List.filter_eq_nil_iff]
  exact Digraph.filter_isCyclic_eq_nil_iff hnd

end WireModel
