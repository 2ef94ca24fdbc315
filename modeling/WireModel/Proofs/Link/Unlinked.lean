import WireModel.Proofs.Link.Bindings
import WireModel.Proofs.Link.Locality

/-!
# Unlinked copies — linking reads what is written

Bindings that are in the modules before linking starts are never read:
each step reads what is written and the bindings of the steps before it,
which it finds made anew. So each step is shown to find the same in a
module and in its unlinked copy, and linking the one gives the same graph
or the same errors as linking the other (`resolve_same`).

Two kinds of copies are compared. Until imports are bound all bindings
are forgotten (`Module.unlinked`), afterwards only those of declarations
(`Module.unreferenced`). The one binding that linking leaves alone is the
base of a declaration that extends nothing, and nothing else writes it
(`BasesLinked`).
-/

namespace WireModel

open Linking

/-! ## Types -/

namespace TypeExpr

variable {f : Ref → Option DeclId} {t : TypeExpr}

theorem bindRefs_eq_missing_iff : t.bindRefs f = missing ↔ t = missing := by
  fun_cases bindRefs f t <;> simp

theorem toText_bindRefs : (t.bindRefs f).toText = t.toText := by
  induction t with
  | missing => rfl
  | node k width r elem ih =>
    by_cases hk : k = .ref
    · subst hk
      cases r <;> rfl
    · rw [bindRefs_node_of_ne hk]
      cases k with
      | ref => exact absurd rfl hk
      | list | map | optional => simp only [toText, ih]
      | _ => rfl

theorem none_mem_refs_bindRefs : none ∈ (t.bindRefs f).refs ↔ none ∈ t.refs := by
  induction t with
  | missing => rfl
  | node k width r elem ih =>
    by_cases hk : k = .ref
    · subst hk
      cases r <;> simp [bindRefs, refs, ih]
    · rw [bindRefs_node_of_ne hk, refs_node_of_ne hk, refs_node_of_ne hk, ih]

/-- What is found by what is written in a reference is missed in a bound
type as in the one that was written. -/
theorem errors_bindType_bindRefs {find : Ref → Except CompileError DeclId}
    (h : ∀ r x, find { r with target := x } = find r) :
    (bindType find (t.bindRefs f)).2 = (bindType find t).2 := by
  induction t with
  | missing => rfl
  | node k width r elem ih =>
    by_cases hk : k = .ref
    · subst hk
      cases r with
      | none => exact ih
      | some r =>
        simp only [bindRefs, bindType, h, ih]
        cases find r <;> rfl
    · rw [bindRefs_node_of_ne hk, bindType_node_of_ne hk, bindType_node_of_ne hk, ih]

/-- **A bound type is reported as the one that was written.** Of the
defects only the nested optional holds a type, and its wording does not
show bindings. -/
theorem map_defect?_bindRefs : ((t.bindRefs f).defect?).map (fun x => (x.kind, x.detail)) =
    (t.defect?).map fun x => (x.kind, x.detail) := by
  induction t with
  | missing => rfl
  | node k width r elem ih =>
    by_cases hk : k = .ref
    · subst hk
      cases r <;> rfl
    · have htext : (node k width r (elem.bindRefs f)).toText = (node k width r elem).toText := by
        rw [← bindRefs_node_of_ne hk, toText_bindRefs]
      have hmissing : (elem.bindRefs f == missing) = (elem == missing) := by
        rw [Bool.eq_iff_iff, beq_iff_eq, beq_iff_eq, bindRefs_eq_missing_iff]
      rw [bindRefs_node_of_ne hk]
      cases k with
      | ref => exact absurd rfl hk
      | optional =>
        simp only [defect?, isOptional_bindRefs, hmissing]
        split
        · rfl
        · split
          · simp only [Option.map_some, TypeDefect.kind, TypeDefect.detail, htext]
          · split
            · rfl
            · exact ih
      | list | map =>
        simp only [defect?, hmissing]
        split
        · rfl
        · split
          · rfl
          · exact ih
      | _ => rfl

end TypeExpr

/-! ## Declarations -/

namespace Decl

variable {d : Decl}

@[simp] theorem kind_unbound : d.unbound.kind = d.kind := kind_mapTypes

@[simp] theorem members_unbound :
    d.unbound.members = d.members.map fun x => (x.1, x.2.bindRefs fun _ => none) :=
  members_mapTypes

@[simp] theorem names_fields_unbound : d.unbound.fields.map (·.name) = d.fields.map (·.name) := by
  have hfields : d.unbound.fields = d.fields.map fun x =>
      { x with type := x.type.bindRefs fun _ => none } := fields_mapTypes
  rw [hfields, List.map_map]
  rfl

@[simp] theorem isInstantiable_unbound : d.unbound.isInstantiable = d.isInstantiable := by
  rw [Bool.eq_iff_iff, isInstantiable_iff, isInstantiable_iff, kind_unbound]

/-- Binding a declaration without its bindings is binding it. -/
theorem mapTypes_unbound {g : Ref → Option DeclId} (h : ∀ r x, g { r with target := x } = g r)
    (base : Option DeclId) : { d.unbound.mapTypes (·.bindRefs g) with base } =
      { d.mapTypes (·.bindRefs g) with base } := by
  have htypes : (d.mapTypes (·.bindRefs fun _ => none)).mapTypes (·.bindRefs g) =
      d.mapTypes (·.bindRefs g) :=
    mapTypes_mapTypes.trans
      (congrArg d.mapTypes (funext fun t => TypeExpr.bindRefs_bindRefs h))
  exact congrArg (fun e : Decl => { e with base }) htypes

theorem unbound_unbound : d.unbound.unbound = d.unbound :=
  mapTypes_unbound (fun _ _ => rfl) none

end Decl

section Errors

variable {module : Text} {d : Decl}

/-- Checking names sees through a renaming of what is checked. -/
theorem checkNames_map {α β : Type} {name : β → Text} {badName taken : β → CompileError}
    {inner : β → List CompileError} (f : α → β) (seen : List Text) (l : List α) :
    checkNames name badName taken inner seen (l.map f) =
      checkNames (name ∘ f) (badName ∘ f) (taken ∘ f) (inner ∘ f) seen l := by
  induction l generalizing seen with
  | nil => rfl
  | cons x l ih => simp only [List.map_cons, checkNames, ih, Function.comp]

theorem typeErrors_unbound {field : Text} {t : TypeExpr} {f : Ref → Option DeclId} :
    d.unbound.typeErrors module field (t.bindRefs f) = d.typeErrors module field t := by
  have hmap := TypeExpr.map_defect?_bindRefs (f := f) (t := t)
  rw [Decl.typeErrors, Decl.typeErrors]
  cases hb : (t.bindRefs f).defect? with
  | none =>
    rw [hb, Option.map_none, eq_comm, Option.map_eq_none_iff] at hmap
    rw [hmap]
  | some x =>
    rw [hb, Option.map_some, eq_comm, Option.map_eq_some_iff] at hmap
    obtain ⟨y, hy, hxy⟩ := hmap
    obtain ⟨hkind, hdetail⟩ := Prod.mk.inj hxy
    rw [hy]
    simp only [hkind, hdetail]
    rfl

theorem fieldErrors_unbound (fs : List Field) : d.unbound.fieldErrors module
    (fs.map fun x => { x with type := x.type.bindRefs fun _ => none }) =
      d.fieldErrors module fs := by
  rw [Decl.fieldErrors, checkNames_map, Decl.fieldErrors]
  refine congrArg (checkNames _ _ _ · [] fs) (funext fun x => ?_)
  exact typeErrors_unbound

theorem variantErrors_unbound (vs : List Variant) : d.unbound.variantErrors module
    (vs.map fun x => { x with payload := x.payload.bindRefs fun _ => none }) =
      d.variantErrors module vs := by
  rw [Decl.variantErrors, checkNames_map, Decl.variantErrors]
  refine congrArg (checkNames _ _ _ · [] vs) (funext fun x => ?_)
  have hvoid : (x.payload.bindRefs (fun _ => none) == .missing) = (x.payload == .missing) := by
    rw [Bool.eq_iff_iff, beq_iff_eq, beq_iff_eq, TypeExpr.bindRefs_eq_missing_iff]
  simp only [Function.comp, Variant.isVoid, hvoid, typeErrors_unbound]
  rfl

/-- **A declaration is as valid as it is written.** -/
theorem errors_unbound : d.unbound.errors module = d.errors module := by
  rw [Decl.errors, Decl.errors, Decl.kind_unbound]
  refine congrArg₂ (· ++ ·) rfl ?_
  obtain ⟨name, body, doc, attributes, extend, base⟩ := d
  cases body with
  | struct fs => exact fieldErrors_unbound fs
  | virtual fs => exact fieldErrors_unbound fs
  | union vs tag payload =>
    refine congrArg₂ (· ++ ·) (congrArg₂ (· ++ ·) ?_ rfl) (variantErrors_unbound vs)
    rw [List.isEmpty_map]
    rfl
  | newtype t => exact typeErrors_unbound
  | consts t cs => rfl
  | unknown n => rfl

end Errors

/-! ## Modules -/

/-- **The module as it is written**, without any binding and without its
name index. -/
def Module.unlinked (m : Module) : Module := { m.unbound with index := none }

/-- Nothing but linking writes the bases of a module. -/
def Module.BasesLinked (m : Module) : Prop := ∀ d ∈ m.decls, d.extend = [] → d.base = none

/-- The module without the bindings of its declarations and without its
name index; imports stay bound. -/
def Module.unreferenced (m : Module) : Module :=
  { m with decls := m.decls.map (·.unbound), index := none }

namespace Module

variable {m : Module} {known : List (Text × Nat)}

theorem unlinked_unlinked : m.unlinked.unlinked = m.unlinked := by
  simp only [unlinked, unbound, List.map_map]
  refine congrArg₂ (fun is ds => { m with imports := is, decls := ds, index := none })
    (List.map_congr_left fun x _ => rfl) (List.map_congr_left fun d _ => Decl.unbound_unbound)

theorem errors_unlinked : m.unlinked.errors = m.errors := by
  have hdecls : m.unlinked.decls = m.decls.map (·.unbound) := rfl
  rw [errors, errors, hdecls, checkNames_map]
  refine congrArg (checkNames _ _ _ · [] m.decls) (funext fun d => ?_)
  exact errors_unbound

theorem find?_unreferenced {name : Text} : m.unreferenced.find? name = m.find? name := by
  simp only [find?, unreferenced, List.findIdx?_map]
  rfl

theorem hasUnnamedRef_unreferenced : m.unreferenced.hasUnnamedRef = m.hasUnnamedRef := by
  rw [Bool.eq_iff_iff]
  simp only [hasUnnamedRef, unreferenced, List.any_map, Function.comp_def, Decl.members_unbound,
    List.any_eq_true, List.contains_iff_mem, TypeExpr.none_mem_refs_bindRefs]

/-! ### Imports -/

/-- The errors of imports do not depend on what they were bound to. -/
theorem errors_bindImports_unbound {module : Text} {aliases : List (Text × Text)}
    {is : List Import} :
    (WireModel.bindImports module known aliases (is.map (·.unbound))).2 =
      (WireModel.bindImports module known aliases is).2 := by
  induction is generalizing aliases with
  | nil => rfl
  | cons i is ih =>
    have hns : i.unbound.ns = i.ns := rfl
    have hpath : i.unbound.path = i.path := rfl
    rw [List.map_cons, WireModel.bindImports, WireModel.bindImports]
    simp only [hns, hpath]
    split
    · exact congrArg (_ :: ·) ih
    · split
      · exact congrArg (_ :: ·) ih
      · split
        · exact congrArg (_ :: ·) ih
        · exact ih

theorem importErrors_unlinked : m.unlinked.importErrors known = m.importErrors known :=
  errors_bindImports_unbound

/-- **Once imports are bound**, nothing is left of what they were bound to
before. -/
theorem unreferenced_bindImports (h : m.importErrors known = []) :
    (m.bindImports known).unreferenced = { m.unlinked with
      imports := m.unlinked.imports.map fun x => { x with bound := Text.lookup? x.path known } } := by
  have himports : (m.bindImports known).imports =
      m.unlinked.imports.map fun x => { x with bound := Text.lookup? x.path known } := by
    have hbound : (m.bindImports known).imports =
        m.imports.map fun x => { x with bound := Text.lookup? x.path known } :=
      bindImports_eq_map h
    rw [hbound]
    simp only [unlinked, unbound, List.map_map]
    rfl
  calc (m.bindImports known).unreferenced
      = { m.unlinked with imports := (m.bindImports known).imports } := rfl
    _ = _ := by rw [himports]

end Module

/-! ## Declarations that are found -/

/-- The declaration with a name, and its position. -/
def Module.found (m : Module) (name : Text) : Option (Nat × Decl) :=
  (m.find? name).bind fun i => (m.decls[i]?).map ((i, ·))

theorem Module.found_unreferenced {m : Module} {name : Text} :
    m.unreferenced.found name = (m.found name).map fun x => (x.1, x.2.unbound) := by
  rw [Module.found, Module.found, Module.find?_unreferenced]
  cases m.find? name with
  | none => rfl
  | some i =>
    simp only [Option.bind_some, Module.unreferenced, List.getElem?_map, Option.map_map]
    rfl

/-- Two declarations that were found are at the same position and alike, or
none was found. -/
theorem found_cases {a b : Option (Nat × Decl)}
    (h : a.map (fun x => (x.1, x.2.unbound)) = b.map fun x => (x.1, x.2.unbound)) :
    (a = none ∧ b = none) ∨
      ∃ i d e, a = some (i, d) ∧ b = some (i, e) ∧ d.unbound = e.unbound := by
  cases a with
  | none => exact Or.inl ⟨rfl, Option.map_eq_none_iff.mp h.symm⟩
  | some x =>
    obtain ⟨y, hy, hxy⟩ := Option.map_eq_some_iff.mp h.symm
    obtain ⟨hpos, hdecl⟩ := Prod.mk.inj hxy
    exact Or.inr ⟨x.1, x.2, y.2, rfl, by rw [hy, ← hpos], hdecl.symm⟩

/-! ## Two workspaces -/

/-- The error of a base: what is extended is not found, or is no virtual
struct, or shares a field name. -/
theorem errors_bindBase {W : Workspace} {m : Module} {self : Nat} {d : Decl} :
    (bindBase W m self d).2 =
      if d.extend = [] then []
      else
        let fail (kind : ErrorKind) (name detail : Text) : CompileError :=
          { kind := some kind, module := m.name, decl := d.name, name, detail }
        match m.found d.extend with
        | none => [fail .unresolvedReference d.extend "extended declaration not found"]
        | some (i, b) =>
          if b.kind = .virtual then
            (bindBase.firstRepeated []
              ((W.allFields { d with base := some ⟨self, i⟩ }).map (·.name))).toList.map fun name =>
                fail .duplicateDeclaration name ("field shadows a field of " ++ b.name)
          else
            [fail .invalidReference d.extend
              ("only virtual structs can be extended, got " ++ b.kind.name)] := by
  rw [bindBase, bindBaseBy, Module.found]
  by_cases hext : d.extend = []
  · simp [hext]
  · simp only [beq_iff_eq, hext, if_false]
    cases (m.find? d.extend).bind fun i => (m.decls[i]?).map ((i, ·)) with
    | none => rfl
    | some x =>
      by_cases hv : x.2.kind = .virtual
      · simp only [hv, bne_self_eq_false, Bool.false_eq_true, if_false, if_true]
        cases bindBase.firstRepeated []
          ((W.allFields { d with base := some ⟨self, x.1⟩ }).map (·.name)) <;> rfl
      · simp [hv]

section Copies

variable {S : Nat → Prop} {W U : Workspace} {m n : Module} {self : Nat}
  (hc : ∀ i, S i → (W[i]?).map Module.unreferenced = (U[i]?).map Module.unreferenced)
  (hmn : m.unreferenced = n.unreferenced) (hself : S self)
  (hin : ∀ x ∈ m.imports, ∀ j, x.bound = some j → S j)

include hself hin in
/-- A reference looks into the module itself or into an imported one. -/
theorem scopeOf_mem {r : Ref} {i : Nat} (h : scopeOf m self r = some i) : S i := by
  rw [scopeOf] at h
  split at h
  · exact Option.some.inj h ▸ hself
  · obtain ⟨x, hx, hb⟩ := Option.bind_eq_some_iff.mp h
    exact hin x (List.mem_of_find?_eq_some hx) i hb

include hc hmn hself hin in
/-- **A reference stands for the same declaration in both**, or is wrong
in the same way. -/
theorem findTarget_congr (decl field : Text) (r : Ref) :
    findTarget W m self decl field r = findTarget U n self decl field r := by
  have hname : n.name = m.name := (congrArg Module.name hmn).symm
  have hscope : scopeOf n self r = scopeOf m self r := by
    have himports : n.imports = m.imports := (congrArg Module.imports hmn).symm
    rw [scopeOf, scopeOf, himports]
  rw [findTarget, findTargetBy, findTargetBy, hname, hscope]
  cases hs : scopeOf m self r with
  | none => rfl
  | some scope =>
    have hfound : ((W[scope]?).bind (·.found r.name)).map (fun x => (x.1, x.2.unbound)) =
        ((U[scope]?).bind (·.found r.name)).map fun x => (x.1, x.2.unbound) := by
      have hcopy := congrArg (Option.bind · (·.found r.name)) (hc scope (scopeOf_mem hself hin hs))
      simp only [Option.bind_map, Function.comp_def, Module.found_unreferenced] at hcopy
      simpa only [Option.map_bind, Function.comp_def] using hcopy
    simp only [Module.found] at hfound
    rcases found_cases hfound with ⟨hW, hU⟩ | ⟨i, d, e, hW, hU, hde⟩
    · simp only [hW, hU]
    · have hinst : d.isInstantiable = e.isInstantiable := by
        rw [← Decl.isInstantiable_unbound, hde, Decl.isInstantiable_unbound]
      have hkind : d.kind = e.kind := by rw [← Decl.kind_unbound, hde, Decl.kind_unbound]
      simp only [hW, hU, hinst, hkind]

include hc hmn hself hin in
theorem target?_congr (r : Ref) : W.target? m self r = U.target? n self r := by
  rw [← toOption_findTarget, findTarget_congr hc hmn hself hin [] [], toOption_findTarget]

include hc hself in
theorem decl?_congr (i : Nat) : (W.decl? ⟨self, i⟩).map Decl.unbound =
    (U.decl? ⟨self, i⟩).map Decl.unbound := by
  have hcopy := congrArg (Option.bind · (·.decls[i]?)) (hc self hself)
  have hdecl : ∀ V : Workspace, ((V[self]?).map Module.unreferenced).bind (·.decls[i]?) =
      (V.decl? ⟨self, i⟩).map Decl.unbound := fun V => by
    rw [Workspace.decl?]
    cases V[self]? with
    | none => rfl
    | some s => simp [Module.unreferenced]
  rw [← hdecl, ← hdecl]
  exact hcopy

/-! ### Declarations that are written the same -/

variable {d e : Decl} (hde : d.unbound = e.unbound)

include hde in
theorem names_fields_congr : d.fields.map (·.name) = e.fields.map (·.name) := by
  rw [← Decl.names_fields_unbound, hde, Decl.names_fields_unbound]

include hc hself hde in
/-- Fields are named as they are written, also those that are taken over. -/
theorem names_allFields_congr (i : Nat) :
    (W.allFields { d with base := some ⟨self, i⟩ }).map (·.name) =
      (U.allFields { e with base := some ⟨self, i⟩ }).map (·.name) := by
  have hown : (Decl.fields { d with base := some ⟨self, i⟩ }).map (·.name) =
      (Decl.fields { e with base := some ⟨self, i⟩ }).map (·.name) := names_fields_congr hde
  have hdecl := decl?_congr hc hself i
  simp only [Workspace.allFields, Option.bind_some]
  cases hW : W.decl? ⟨self, i⟩ with
  | none =>
    rw [hW, Option.map_none, eq_comm, Option.map_eq_none_iff] at hdecl
    rw [hdecl]
    exact hown
  | some b =>
    rw [hW, Option.map_some, eq_comm, Option.map_eq_some_iff] at hdecl
    obtain ⟨c, hU, hcb⟩ := hdecl
    rw [hU]
    simp only [List.map_append]
    rw [hown, names_fields_congr hcb]

include hc hmn hself hde in
theorem errors_bindBase_congr : (bindBase W m self d).2 = (bindBase U n self e).2 := by
  have hmodule : m.name = n.name := (congrArg Module.name hmn :)
  have hname : d.name = e.name := (congrArg Decl.name hde :)
  have hextend : d.extend = e.extend := (congrArg Decl.extend hde :)
  have hfound : (m.found e.extend).map (fun x => (x.1, x.2.unbound)) =
      (n.found e.extend).map fun x => (x.1, x.2.unbound) := by
    rw [← Module.found_unreferenced, hmn, Module.found_unreferenced]
  rw [errors_bindBase, errors_bindBase]
  simp only [names_allFields_congr hc hself hde]
  rw [hmodule, hname, hextend]
  rcases found_cases hfound with ⟨hm, hn⟩ | ⟨i, a, b, hm, hn, hab⟩
  · rw [hm, hn]
  · have hkind : a.kind = b.kind := by rw [← Decl.kind_unbound, hab, Decl.kind_unbound]
    have hshared : a.name = b.name := (congrArg Decl.name hab :)
    simp only [hm, hn, hkind, hshared]

include hc hmn hself hin hde in
/-- **Binding finds the same errors** in declarations that are written the
same. -/
theorem errors_bindDecl_congr : (bindDecl W m self d).2 = (bindDecl U n self e).2 := by
  have herrors : ∀ (V : Workspace) (k : Module) (c : Decl), (bindDecl V k self c).2 =
      (bindBase V k self c).2 ++
        c.unbound.members.flatMap fun x => (bindType (findTarget V k self c.name x.1) x.2).2 := by
    intro V k c
    rw [Decl.members_unbound, List.flatMap_map]
    refine congrArg _ (List.flatMap_congr fun x _ => Eq.symm ?_)
    exact TypeExpr.errors_bindType_bindRefs fun _ _ => rfl
  have hname : d.name = e.name := (congrArg Decl.name hde :)
  rw [herrors, herrors, errors_bindBase_congr hc hmn hself hde, hde, hname]
  refine congrArg _ (List.flatMap_congr fun x _ => ?_)
  rw [funext (findTarget_congr hc hmn hself hin e.name x.1)]

include hc hmn hself hin hde in
/-- **And binds the same**, if it finds none: all bindings are
overwritten. -/
theorem linkDecl_congr (h : (bindDecl W m self d).2 = []) (hd : d.extend = [] → d.base = none)
    (he : e.extend = [] → e.base = none) : linkDecl W m self d = linkDecl U n self e := by
  have hokd := (bindDecl_errors_eq_nil_iff.mp h).1
  have hoke := (bindDecl_errors_eq_nil_iff.mp
    ((errors_bindDecl_congr hc hmn hself hin hde).symm.trans h)).1
  have hextend : d.extend = e.extend := (congrArg Decl.extend hde :)
  have hbase : (bindBase W m self d).1 = (bindBase U n self e).1 := by
    rw [bindBase_eq hokd, bindBase_eq hoke, hextend, ← Module.find?_unreferenced, hmn,
      Module.find?_unreferenced]
    split
    next hnil => rw [hd (hextend.trans hnil), he hnil]
    next => rfl
  have hunbound : ∀ (V : Workspace) (k : Module) (c : Decl), linkDecl V k self c =
      { c.unbound.mapTypes (·.bindRefs (V.target? k self)) with
        base := (bindBase V k self c).1 } := by
    intro V k c
    rw [Decl.mapTypes_unbound fun _ _ => rfl]
    rfl
  rw [hunbound, hunbound, hbase, hde, funext (target?_congr hc hmn hself hin)]

end Copies

/-! ## The steps of two runs -/

/-- Registering reads paths and what is wrong with modules. -/
theorem register_congr {w u : Workspace} {ids : List Nat} {known : List (Text × Nat)}
    (h : ∀ i ∈ ids, (w[i]?).map (fun m => (m.path, m.errors)) =
      (u[i]?).map fun m => (m.path, m.errors)) :
    register w known ids = register u known ids := by
  induction ids generalizing known with
  | nil => rfl
  | cons i ids ih =>
    have hrest : ∀ known, register w known ids = register u known ids :=
      fun _ => ih fun j hj => h j (List.mem_cons_of_mem i hj)
    have hi := h i List.mem_cons_self
    rw [register, register]
    cases hm : w[i]? with
    | none =>
      rw [hm, Option.map_none, eq_comm, Option.map_eq_none_iff] at hi
      simp only [hi, hrest]
    | some m =>
      rw [hm, Option.map_some, eq_comm, Option.map_eq_some_iff] at hi
      obtain ⟨n, hn, hmn⟩ := hi
      obtain ⟨hpath, herrors⟩ := Prod.mk.inj hmn
      simp only [hn, hpath, herrors, hrest]

theorem errors_bindAllRefs {W : Workspace} {ids : List Nat} : (bindAllRefs W ids).2 =
    ids.flatMap fun i =>
      ((W[i]?).map fun m => m.decls.flatMap fun d => (bindDecl W m i d).2).getD [] := by
  have he : (bindAllRefs W ids).2 =
      (ids.filterMap (boundDecls W)).flatMap fun x => x.2.flatMap (·.2) := rfl
  rw [he]
  induction ids with
  | nil => rfl
  | cons i ids ih =>
    rw [List.flatMap_cons, ← ih rfl]
    cases hm : W[i]? with
    | none => rw [List.filterMap_cons_none (by simp [boundDecls, hm])]; rfl
    | some m =>
      have hb : boundDecls W i = some (i, m.decls.map (bindDecl W m i)) := by simp [boundDecls, hm]
      rw [List.filterMap_cons_some hb, List.flatMap_cons, List.flatMap_map]
      rfl

/-- Lists with the same images, elementwise the same under other
functions. -/
theorem map_eq_map_of_map_eq {α β γ : Type} {f g : α → β} {f' g' : α → γ} {l k : List α}
    (h : l.map f = k.map g) (hfg : ∀ a ∈ l, ∀ b ∈ k, f a = g b → f' a = g' b) :
    l.map f' = k.map g' := by
  induction l generalizing k with
  | nil =>
    obtain rfl : k = [] := by simpa using h.symm
    rfl
  | cons a l ih =>
    cases k with
    | nil => cases h
    | cons b k =>
      obtain ⟨hab, h⟩ := List.cons.inj h
      rw [List.map_cons, List.map_cons, hfg a List.mem_cons_self b List.mem_cons_self hab]
      refine congrArg _ (ih h fun x hx y hy => ?_)
      exact hfg x (List.mem_cons_of_mem a hx) y (List.mem_cons_of_mem b hy)

section Runs

variable {w u : Workspace} {ids : List Nat}
  (h : ∀ i ∈ ids, (w[i]?).map Module.unlinked = (u[i]?).map Module.unlinked)

include h in
/-- **The same modules are registered**, with the same errors. -/
theorem register_eq : register w [] ids = register u [] ids :=
  register_congr fun i hi => map_eq_of_copies (h i hi) fun m => by
    rw [Module.errors_unlinked]
    rfl

include h in
theorem paths_eq : paths w ids = paths u ids := by rw [paths, paths, register_eq h]

include h in
theorem order_eq : order w ids = order u ids := by rw [order, order, paths_eq h]

variable (hreg : (register w [] ids).2 = [])

include hreg in
theorem mem_of_mem_order {i : Nat} (hi : i ∈ order w ids) : i ∈ ids := by
  obtain ⟨m, hm⟩ := (mem_order_iff hreg).mp hi
  exact hm.1

include h hreg in
/-- **The same errors are found in imports.** -/
theorem errors_bindAllImports_eq : (bindAllImports w (paths w ids) (order w ids)).2 =
    (bindAllImports u (paths w ids) (order w ids)).2 := by
  rw [errors_bindAllImports (nodup_order hreg), errors_bindAllImports (nodup_order hreg)]
  refine List.flatMap_congr fun i hi => congrArg (Option.getD · []) ?_
  exact map_eq_of_copies (h i (mem_of_mem_order hreg hi)) fun m => Module.importErrors_unlinked

variable (himp : (bindAllImports w (paths w ids) (order w ids)).2 = [])

include hreg himp in
/-- Once imports are bound, a module is known from what is written. -/
theorem unreferenced_withImports {i : Nat} (hi : i ∈ order w ids) :
    ((withImports w ids)[i]?).map Module.unreferenced =
      ((w[i]?).map Module.unlinked).map fun m => { m with
        imports := m.imports.map fun x => { x with
          bound := Text.lookup? x.path (paths w ids) } } := by
  obtain ⟨m, hm⟩ := (mem_order_iff hreg).mp hi
  have hnone := (bindAllImports_errors_eq_nil_iff (nodup_order hreg)).mp himp i hi m hm.2
  rw [getElem?_withImports hreg hm, hm.2, Option.map_some,
    Module.unreferenced_bindImports hnone]
  rfl

include hreg himp in
/-- Imports of modules to link are bound to modules to link. -/
theorem mem_order_of_bound {i : Nat} {m : Module} (hm : Given w ids i m) {x : Import}
    (hx : x ∈ (m.bindImports (paths w ids)).imports) {j : Nat} (hj : x.bound = some j) :
    j ∈ order w ids := by
  rw [imports_bindImports hreg himp hm] at hx
  obtain ⟨y, -, rfl⟩ := List.mem_map.mp hx
  obtain ⟨n, hn, -⟩ := (lookup?_paths_eq_some_iff hreg).mp hj
  exact (mem_order_iff hreg).mpr ⟨n, hn⟩

include h hreg himp in
theorem unreferenced_withImports_eq {i : Nat} (hi : i ∈ order w ids) :
    ((withImports w ids)[i]?).map Module.unreferenced =
      ((withImports u ids)[i]?).map Module.unreferenced := by
  have hregu : (register u [] ids).2 = [] := register_eq h ▸ hreg
  have himpu : (bindAllImports u (paths u ids) (order u ids)).2 = [] := by
    rw [← paths_eq h, ← order_eq h, ← errors_bindAllImports_eq h hreg]
    exact himp
  rw [unreferenced_withImports hreg himp hi,
    unreferenced_withImports hregu himpu (order_eq h ▸ hi), h i (mem_of_mem_order hreg hi),
    paths_eq h]

include h hreg himp in
/-- **A module to link is in both workspaces**, written the same. -/
theorem exists_given_pair {i : Nat} (hi : i ∈ order w ids) : ∃ m n, Given w ids i m ∧
    Given u ids i n ∧ (m.bindImports (paths w ids)).unreferenced =
      (n.bindImports (paths u ids)).unreferenced := by
  have hregu : (register u [] ids).2 = [] := register_eq h ▸ hreg
  obtain ⟨m, hm⟩ := (mem_order_iff hreg).mp hi
  obtain ⟨n, hn⟩ := (mem_order_iff hregu).mp (order_eq h ▸ hi)
  have hcopy := unreferenced_withImports_eq h hreg himp hi
  rw [getElem?_withImports hreg hm, getElem?_withImports hregu hn] at hcopy
  exact ⟨m, n, hm, hn, Option.some.inj hcopy⟩

include h hreg himp in
/-- **The same errors are found in references.** -/
theorem errors_bindAllRefs_eq : (bindAllRefs (withImports w ids) (order w ids)).2 =
    (bindAllRefs (withImports u ids) (order w ids)).2 := by
  have hregu : (register u [] ids).2 = [] := register_eq h ▸ hreg
  rw [errors_bindAllRefs, errors_bindAllRefs]
  refine List.flatMap_congr fun i hi => ?_
  obtain ⟨m, n, hm, hn, hmn⟩ := exists_given_pair h hreg himp hi
  rw [getElem?_withImports hreg hm, getElem?_withImports hregu hn, Option.map_some,
    Option.map_some, Option.getD_some, Option.getD_some, List.flatMap_def, List.flatMap_def]
  refine congrArg List.flatten (map_eq_map_of_map_eq (congrArg Module.decls hmn) ?_)
  intro d _ e _ hde
  exact errors_bindDecl_congr (fun j hj => unreferenced_withImports_eq h hreg himp hj) hmn hi
    (fun x hx j hj => mem_order_of_bound hreg himp hm hx hj) hde

variable (href : (bindAllRefs (withImports w ids) (order w ids)).2 = [])

include h hreg himp href in
/-- **And the modules are linked the same**, if nothing but linking writes
bases. -/
theorem linked_agreesOn (hw : ∀ i m, Given w ids i m → m.BasesLinked)
    (hu : ∀ i m, Given u ids i m → m.BasesLinked) :
    (linked w ids).AgreesOn (· ∈ order w ids) (linked u ids) := by
  have hregu : (register u [] ids).2 = [] := register_eq h ▸ hreg
  have hrefu : (bindAllRefs (withImports u ids) (order u ids)).2 = [] := by
    rw [← order_eq h, ← errors_bindAllRefs_eq h hreg himp, href]
  intro i hi
  obtain ⟨m, n, hm, hn, hmn⟩ := exists_given_pair h hreg himp hi
  have hdecls : (m.bindImports (paths w ids)).decls.map
        (linkDecl (withImports w ids) (m.bindImports (paths w ids)) i) =
      (n.bindImports (paths u ids)).decls.map
        (linkDecl (withImports u ids) (n.bindImports (paths u ids)) i) := by
    refine map_eq_map_of_map_eq (congrArg Module.decls hmn) fun d hd e he hde => ?_
    refine linkDecl_congr (fun j hj => unreferenced_withImports_eq h hreg himp hj) hmn hi
      (fun x hx j hj => mem_order_of_bound hreg himp hm hx hj) hde ?_ (hw i m hm d hd)
      (hu i n hn e he)
    exact bindAllRefs_errors_eq_nil_iff.mp href i hi _ (getElem?_withImports hreg hm) d hd
  rw [getElem?_linked hreg href hm, getElem?_linked hregu hrefu hn]
  have hcopy : ∀ (V : Workspace) (k : Module), (linkModule V i k).unindexed =
      { k.unreferenced with decls := k.decls.map (linkDecl V k i) } := fun _ _ => rfl
  rw [Option.map_some, Option.map_some, hcopy, hcopy, hmn, hdecls]

include hreg himp href in
/-- **Bindings do not lead out of linked modules.** -/
theorem closed_linked (hw : ∀ i m, Given w ids i m → m.BasesLinked) :
    Closed (· ∈ order w ids) (linked w ids) := by
  have hdecl : ∀ a d, a.module ∈ order w ids → (linked w ids).decl? a = some d → ∃ m d₀,
      Given w ids a.module m ∧ d₀ ∈ m.decls ∧
        d = linkDecl (withImports w ids) (m.bindImports (paths w ids)) a.module d₀ := by
    intro a d ha hd
    obtain ⟨m, hm⟩ := (mem_order_iff hreg).mp ha
    rw [decl?_linked hreg href a hm, Option.map_eq_some_iff] at hd
    obtain ⟨d₀, hd₀, rfl⟩ := hd
    rw [hm.decl? a rfl] at hd₀
    exact ⟨m, d₀, hm, List.mem_of_getElem? hd₀, rfl⟩
  refine ⟨?_, ?_, ?_⟩
  · intro i n hi hn x hx j hj
    obtain ⟨m, hm⟩ := (mem_order_iff hreg).mp hi
    rw [getElem?_linked hreg href hm] at hn
    obtain rfl := Option.some.inj hn
    exact mem_order_of_bound hreg himp hm hx hj
  · intro a d ha hd b hb
    obtain ⟨m, d₀, hm, hd₀, rfl⟩ := hdecl a d ha hd
    have herr := bindAllRefs_errors_eq_nil_iff.mp href _ ha _ (getElem?_withImports hreg hm) d₀ hd₀
    have hbase : (bindBase (withImports w ids) (m.bindImports (paths w ids)) a.module d₀).1 =
      some b := hb
    rw [bindBase_eq (bindDecl_errors_eq_nil_iff.mp herr).1] at hbase
    split at hbase
    next hnil => rw [hw _ m hm d₀ hd₀ hnil] at hbase; cases hbase
    next =>
      obtain ⟨k, -, rfl⟩ := Option.map_eq_some_iff.mp hbase
      exact ha
  · intro a d t ha hd ht b hb
    obtain ⟨m, d₀, hm, -, rfl⟩ := hdecl a d ha hd
    obtain ⟨t₀, -, rfl⟩ := body_linkDecl_newtype_iff.mp ht
    obtain ⟨-, r, -, -, hr⟩ := target?_bindRefs_eq_some_iff.mp hb
    obtain ⟨e, hnames, -⟩ := (target?_eq_some_iff hreg himp hm).mp hr
    obtain ⟨n, hn⟩ := given_of_looksInto hm hnames.1
    exact (mem_order_iff hreg).mpr ⟨n, hn⟩

end Runs

/-- **Linking reads what is written.** Two workspaces whose modules to link
are written the same, whatever they are bound to, are linked with the
same result. -/
theorem resolve_same {w u : Workspace} {ids : List Nat}
    (h : ∀ i ∈ ids, (w[i]?).map Module.unlinked = (u[i]?).map Module.unlinked)
    (hw : ∀ i m, Given w ids i m → m.BasesLinked) (hu : ∀ i m, Given u ids i m → m.BasesLinked) :
    SameResult (resolve w ids).2 (resolve u ids).2 := by
  rw [resolve, resolve, resolveWith_eq, resolveWith_eq, ← register_eq h, ← paths_eq h,
    ← order_eq h]
  -- a step with errors ends both runs, and one without leads both to the next step
  split
  · exact .failure _
  next hreg =>
  have hreg : (register w [] ids).2 = [] := by simpa using hreg
  rw [← errors_bindAllImports_eq h hreg]
  split
  · exact .failure _
  next himp =>
  have himp : (bindAllImports w (paths w ids) (order w ids)).2 = [] := by simpa using himp
  have hcopies : ∀ i ∈ order w ids, _ := fun i hi => unreferenced_withImports_eq h hreg himp hi
  rw [cycleErrors_congr (nodup_order hreg) fun i hi =>
    map_eq_of_copies (hcopies i hi) fun _ => rfl]
  split
  · exact .failure _
  have hnamed : ((order w ids).any fun i => ((withImports w ids)[i]?).any (·.hasUnnamedRef)) =
      (order w ids).any fun i => ((withImports u ids)[i]?).any (·.hasUnnamedRef) := by
    have hmap : ∀ o : Option Module, o.any (·.hasUnnamedRef) =
        (o.map (·.hasUnnamedRef)).getD false := fun o => by cases o <;> rfl
    rw [Bool.eq_iff_iff, List.any_eq_true, List.any_eq_true]
    refine exists_congr fun i => and_congr_right fun hi => ?_
    rw [hmap, hmap, map_eq_of_copies (hcopies i hi) fun _ => Module.hasUnnamedRef_unreferenced]
  rw [hnamed]
  split
  · exact .failure _
  rw [← errors_bindAllRefs_eq h hreg himp]
  split
  · exact .failure _
  next href =>
  have href : (bindAllRefs (withImports w ids) (order w ids)).2 = [] := by simpa using href
  have hagree := linked_agreesOn h hreg himp href hw hu
  rw [linked, linked, ← order_eq h] at hagree
  exact finish_same hagree (closed_linked hreg himp href hw) fun _ hi => hi

end WireModel
