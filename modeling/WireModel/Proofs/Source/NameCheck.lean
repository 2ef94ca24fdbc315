import WireModel.Proofs.Link.Bindings
import WireModel.Proofs.Link.Emission
import WireModel.Proofs.Naming.Exported
import WireModel.Proofs.Source.Declared
import WireModel.Proofs.Text.Entries

/-!
# The check of names — generated source declares no name twice

Before the source of a module is built, the names of its declarations are
gathered and compared. The check knows nothing of the source: it reckons
with the names once more. It passes if and only if no name would be
declared twice (`Context.checkNames_eq_ok_iff`), so what is built declares
none twice, and where one would be building fails
(`names_declared_once`). It is a little stricter than it has to be: a group
without constants has no table, but the name of the table is taken.
-/

namespace WireModel

open Linking

open scoped List

namespace Source

/-! ## Gathering names -/

section Check

variable {w : Workspace} {module : Text} {known cs out : List OwnedName} {d : Decl}
  {ds : List Decl} {f : Fault}

/-- **Names are added** if none of them is taken. -/
theorem addNames_eq_ok_iff (hknown : (known.map (·.1)).Nodup) :
    addNames known cs = .ok out ↔ out = known ++ cs ∧ ((known ++ cs).map (·.1)).Nodup := by
  induction cs generalizing known with
  | nil => simp [addNames, hknown, eq_comm]
  | cons x cs ih =>
    obtain ⟨name, owner⟩ := x
    rw [addNames]
    cases hfind : Text.lookup? name known with
    | some prev =>
      have htaken : name ∈ known.map (·.1) :=
        List.mem_map_of_mem (f := (·.1)) (Text.mem_of_lookup? hfind)
      refine iff_of_false (by simp) fun h => ?_
      rw [List.map_append, List.map_cons, List.nodup_append] at h
      exact h.2.2.2 name htaken name List.mem_cons_self rfl
    | none =>
      have hnew : name ∉ known.map (·.1) := Text.lookup?_eq_none_iff.mp hfind
      have hknown' : ((known ++ [(name, owner)]).map (·.1)).Nodup := by
        rw [List.map_append]
        exact hknown.append (List.nodup_singleton _) (by simpa using hnew)
      simp only
      rw [ih hknown', List.append_assoc, List.singleton_append]

/-- **The check passes** if no name is taken twice, in the package or in a
type. -/
theorem checkDecls_eq_ok_iff (hknown : (known.map (·.1)).Nodup) :
    checkDecls w module known ds = .ok () ↔
      ((known ++ ds.flatMap packageNames).map (·.1)).Nodup ∧
        ∀ d ∈ ds, ((memberNames w d).map (·.1)).Nodup := by
  induction ds generalizing known with
  | nil => simp [checkDecls, hknown]
  | cons d ds ih =>
    rw [checkDecls, List.flatMap_cons, ← List.append_assoc, List.forall_mem_cons]
    cases hadd : addNames known (packageNames d) with
    | error e =>
      refine iff_of_false (by simp) fun h => ?_
      rw [List.map_append] at h
      have hok := (addNames_eq_ok_iff hknown).mpr ⟨rfl, h.1.of_append_left⟩
      rw [hadd] at hok
      cases hok
    | ok known' =>
      obtain ⟨rfl, hnodup⟩ := (addNames_eq_ok_iff hknown).mp hadd
      have hmembers : ∀ {out}, addNames [] (memberNames w d) = .ok out ↔
          out = memberNames w d ∧ ((memberNames w d).map (·.1)).Nodup :=
        addNames_eq_ok_iff List.nodup_nil
      cases hmember : addNames [] (memberNames w d) with
      | error e =>
        refine iff_of_false (by simp) fun h => ?_
        have hok := hmembers.mpr ⟨rfl, h.2.1⟩
        rw [hmember] at hok
        cases hok
      | ok out =>
        simp only
        rw [ih hnodup, and_iff_right (hmembers.mp hmember).2]

/-- **A module passes** if no name is taken twice in it. -/
theorem checkNames_eq_ok_iff_nodup {m : Module} :
    checkNames w m = .ok () ↔
      ((m.decls.flatMap packageNames).map (·.1)).Nodup ∧
        ∀ d ∈ m.decls, ((memberNames w d).map (·.1)).Nodup := by
  have hknown : (([] : List OwnedName).map (·.1)).Nodup := List.nodup_nil
  rw [checkNames, checkDecls_eq_ok_iff hknown, List.nil_append]

/-- If a check does not pass, a name is at fault. -/
theorem nameFault_of_checkDecls (h : checkDecls w module known ds = .error f) :
    ∃ detail, f = nameFault module detail := by
  induction ds generalizing known with
  | nil => cases h
  | cons d ds ih =>
    rw [checkDecls] at h
    split at h
    · exact ⟨_, (Except.error.inj h).symm⟩
    · split at h
      · exact ⟨_, (Except.error.inj h).symm⟩
      · exact ih h

end Check

namespace Context

variable {c : Context}

/-- The names of the package: those that the file declares, and the tables
of groups without constants. -/
def reservedNames (c : Context) : List Text :=
  packageNamesOf c.file.items ++ c.self.decls.flatMap emptyTable

/-- **No two names are equal**, in the package or in a type. -/
def NamesDistinct (c : Context) : Prop :=
  c.reservedNames.Nodup ∧ ∀ type, (memberNamesOf type c.file.items).Nodup

theorem NamesDistinct.noNameTwice (h : c.NamesDistinct) : NoNameTwice c.file.items where
  package := h.1.of_append_left
  members := h.2

section File

variable (hperm : (c.module.order.map c.decl).Perm c.self.decls)
  (hknown : ∀ d ∈ c.self.decls, ∀ n, d.body ≠ .unknown n)

include hperm hknown

/-- **The names of the package** are those that are reckoned with. -/
theorem reservedNames_perm :
    c.reservedNames.Perm ((c.self.decls.flatMap packageNames).map (·.1)) := by
  have htables : (c.self.decls.flatMap emptyTable).Perm
      (c.module.order.flatMap fun id => emptyTable (c.decl id)) := by
    have hmap := hperm.symm.flatMap_right emptyTable
    rwa [List.flatMap_map] at hmap
  have heach : ∀ id ∈ c.module.order, (packageNamesOf (c.items id) ++ emptyTable (c.decl id)).Perm
      ((packageNames (c.decl id)).map (·.1)) := fun id hid =>
    packageNamesOf_items rfl (hknown _ (hperm.mem_iff.mp (List.mem_map_of_mem hid)))
  calc c.reservedNames
      = (c.module.order.flatMap fun id => packageNamesOf (c.items id)) ++
          c.self.decls.flatMap emptyTable := by rw [reservedNames, file, packageNamesOf_flatMap]
    _ ~ (c.module.order.flatMap fun id => packageNamesOf (c.items id)) ++
          c.module.order.flatMap fun id => emptyTable (c.decl id) := htables.append_left _
    _ ~ c.module.order.flatMap fun id => packageNamesOf (c.items id) ++ emptyTable (c.decl id) :=
        List.flatMap_append_perm ..
    _ ~ c.module.order.flatMap fun id => (packageNames (c.decl id)).map (·.1) :=
        List.Perm.flatMap_left _ heach
    _ = ((c.module.order.map c.decl).flatMap packageNames).map (·.1) := by
        rw [List.map_flatMap, List.flatMap_map]
    _ ~ (c.self.decls.flatMap packageNames).map (·.1) := (hperm.flatMap_right _).map _

/-- **The check passes** if and only if no two names would be equal. -/
theorem checkNames_eq_ok_iff : checkNames c.workspace c.self = .ok () ↔ c.NamesDistinct := by
  have hmem : ∀ {d}, d ∈ c.self.decls ↔ ∃ id ∈ c.module.order, c.decl id = d := fun {d} =>
    hperm.symm.mem_iff.trans List.mem_map
  rw [checkNames_eq_ok_iff_nodup, NamesDistinct, (reservedNames_perm hperm hknown).nodup_iff]
  refine and_congr_right fun hreserved => ?_
  rw [← (reservedNames_perm hperm hknown).nodup_iff, reservedNames, file,
    packageNamesOf_flatMap] at hreserved
  have hpackage := hreserved.of_append_left
  have hitems : ∀ id ∈ c.module.order, (packageNamesOf (c.items id)).Nodup :=
    (List.nodup_flatMap.mp hpackage).1
  simp only [file, memberNamesOf_flatMap]
  constructor
  · -- the members of a type are declared with it, by one declaration
    intro h type
    refine nodup_flatMap_of_owned type hpackage (fun id hid => ?_)
      fun id x hx => mem_packageNamesOf_items hx
    exact (nodup_memberNamesOf_items rfl (hitems id hid)).mpr (h _ (hmem.mpr ⟨id, hid, rfl⟩)) type
  · intro h d hd
    obtain ⟨id, hid, rfl⟩ := hmem.mp hd
    exact (nodup_memberNamesOf_items rfl (hitems id hid)).mp fun type =>
      (List.nodup_flatMap.mp (h type)).1 id hid

end File

end Context

/-! ## Linked modules -/

section Linked

variable {w : Workspace} {ids : List Nat} {cfg : Config} {m : LinkedModule}
  (hp : Passes w ids) (hm : m ∈ (graph w ids).modules)

include hp hm

/-- A linked module is a given one with its references bound. -/
theorem exists_self_eq (cfg : Config) :
    let c : Context := ⟨cfg, graph w ids, m⟩
    (linked w ids)[m.id]? = some c.self ∧ ∃ m₀, Given w ids m.id m₀ ∧
      c.self = linkModule (withImports w ids) m.id (m₀.bindImports (paths w ids)) := by
  intro c
  obtain ⟨m₀, hm₀⟩ := (exists_mem_modules_iff hp).mp ⟨m, hm, rfl⟩
  have hget := getElem?_linked hp.registered hp.references hm₀
  have hself : c.self = linkModule (withImports w ids) m.id (m₀.bindImports (paths w ids)) := by
    simp only [Context.self, Context.workspace, c, graph, hget, Option.getD_some]
  exact ⟨hself ▸ hget, m₀, hm₀, hself⟩

/-- Its declarations are emitted in some order. -/
theorem order_map_decl_perm :
    let c : Context := ⟨cfg, graph w ids, m⟩
    (m.order.map c.decl).Perm c.self.decls := by
  intro c
  have hself : (linked w ids)[m.id]? = some c.self := (exists_self_eq hp hm cfg).1
  have hdecl : ∀ i, (linked w ids).decl? ⟨m.id, i⟩ = c.self.decls[i]? := by
    intro i
    rw [Workspace.decl?, hself]
  have horder : m.order.Perm ((linked w ids).declIds m.id) := by
    rw [(mem_modules_graph_iff.mp hm).2]
    exact order_perm _ _ _
  have hdecls : ((linked w ids).declIds m.id).map c.decl = c.self.decls := by
    rw [Workspace.declIds, hself, List.map_map]
    refine List.ext_getElem (by simp) fun i hi hi' => ?_
    rw [List.getElem_map, List.getElem_range, Function.comp_apply, Context.decl]
    change ((linked w ids).decl? ⟨m.id, i⟩).getD default = _
    rw [hdecl, List.getElem?_eq_getElem hi', Option.getD_some]
  rw [← hdecls]
  exact horder.map _

/-- And their kinds are known. -/
theorem body_ne_unknown : ∀ d ∈ (Context.mk cfg (graph w ids) m).self.decls,
    ∀ n, d.body ≠ .unknown n := by
  obtain ⟨-, m₀, hm₀, hself⟩ := exists_self_eq hp hm cfg
  rw [hself]
  intro d hd n hbody
  obtain ⟨d₀, hd₀, rfl⟩ := List.mem_map.mp hd
  have hkind : d₀.body.kind = .unknown n := by
    rw [← Decl.kind, ← kind_linkDecl, Decl.kind, hbody, Body.kind]
  have herrors := Module.decl_errors_of_valid ((passes_iff.mp hp).1.valid m.id m₀ hm₀) hd₀
  rw [Decl.errors, List.append_eq_nil_iff] at herrors
  cases hbody₀ : d₀.body with
  | unknown k => simp [hbody₀] at herrors
  | _ => simp [hbody₀, Body.kind] at hkind

end Linked

/-! ## Building -/

section Building

variable {cfg : Config} {g : ModuleGraph} {m : LinkedModule}

/-- **What is built has been checked**, and it is the file of the module
that is rendered. -/
theorem of_artifacts {as : List Artifact} (h : (backend cfg).artifacts g m = .ok as) :
    let c : Context := ⟨cfg, g, m⟩
    checkNames c.workspace c.self = .ok () ∧
      ∀ a ∈ as, ∀ t, a.content = .ok t → c.file.text? c.hints = some t := by
  intro c
  simp only [backend] at h
  split at h
  · cases h
  · cases hnames : checkNames c.workspace c.self with
    | error f =>
      rw [hnames] at h
      cases h
    | ok u =>
      rw [hnames] at h
      refine ⟨rfl, fun a ha t ht => ?_⟩
      rw [← Except.ok.inj h, List.mem_singleton] at ha
      rw [ha] at ht
      cases htext : c.file.text? c.hints with
      | none => simp [c, htext] at ht
      | some t' => simpa [c, htext] using ht

/-- Where there is a package, the check decides whether something is
built. -/
theorem artifacts_of_checkNames (hpackage : cfg.package ≠ []) :
    (∀ f, checkNames g.workspace (Context.mk cfg g m).self = .error f →
      (backend cfg).artifacts g m = .error f) ∧
    (checkNames g.workspace (Context.mk cfg g m).self = .ok () →
      ∃ as, (backend cfg).artifacts g m = .ok as) := by
  simp only [backend, beq_iff_eq, if_neg hpackage, Context.workspace]
  constructor
  · intro f hnames
    rw [hnames]
    rfl
  · intro hnames
    rw [hnames]
    exact ⟨_, rfl⟩

end Building

end Source

open Source

variable {w : Workspace} {ids : List Nat} {g : ModuleGraph} {m : LinkedModule}

/-- **Generated source declares no name twice.** Where something is built for
a linked module, what is rendered is the file of the module, and this
declares no name twice in its package and none twice in a type. If any two
of the names would be equal, those of the tables of groups without constants
included, building fails with a generation fault, whatever the settings; if
they name a package, it is the check of the names that fails, and it fails
only then. -/
theorem names_declared_once (h : (resolve w ids).2 = .ok g) (hm : m ∈ g.modules) (cfg : Config) :
    let c : Context := ⟨cfg, g, m⟩
    let job : Job := ⟨backend cfg, m⟩
    (∀ as, (backend cfg).artifacts g m = .ok as → NoNameTwice c.file.items ∧
      ∀ a ∈ as, ∀ t, a.content = .ok t → c.file.text? c.hints = some t) ∧
    (¬ c.NamesDistinct → ∃ cause,
      job.run g = .error (.generationBy { backend := "go", module := job.moduleName g } [] cause)) ∧
    (cfg.package ≠ [] →
      c.NamesDistinct ∧ (∃ as, (backend cfg).artifacts g m = .ok as) ∨
      ¬ c.NamesDistinct ∧ ∃ detail, (backend cfg).artifacts g m =
        .error (.generation { backend := "go", module := c.self.name } detail)) := by
  intro c job
  obtain ⟨hp, rfl⟩ := passes_of_resolve h
  have hcheck : Source.checkNames c.workspace c.self = .ok () ↔ c.NamesDistinct :=
    Context.checkNames_eq_ok_iff (order_map_decl_perm hp hm) (body_ne_unknown hp hm)
  have hbuilt : ∀ as, (backend cfg).artifacts (graph w ids) m = .ok as → c.NamesDistinct :=
    fun as has => hcheck.mp (of_artifacts has).1
  refine ⟨fun as has => ⟨(hbuilt as has).noNameTwice, (of_artifacts has).2⟩, fun hclash => ?_,
    fun hpackage => ?_⟩
  · -- every failure of a backend becomes a generation fault
    cases hartifacts : (backend cfg).artifacts (graph w ids) m with
    | ok as => exact absurd (hbuilt as hartifacts) hclash
    | error f =>
      refine ⟨f, ?_⟩
      simp only [Job.run, job, hartifacts]
      rfl
  · obtain ⟨hfails, hbuilds⟩ := artifacts_of_checkNames (g := graph w ids) (m := m) hpackage
    cases hnames : Source.checkNames c.workspace c.self with
    | ok u => exact Or.inl ⟨hcheck.mp hnames, hbuilds hnames⟩
    | error f =>
      obtain ⟨detail, rfl⟩ := nameFault_of_checkDecls hnames
      refine Or.inr ⟨fun hdistinct => ?_, detail, hfails _ hnames⟩
      rw [hcheck.mpr hdistinct] at hnames
      cases hnames

namespace Sample

/-- A struct, and a group without constants whose table would be called
like it. -/
def keys : Workspace :=
  [{ name := "keys", path := "keys",
     decls := [
       { name := "IDs", body := .struct [] },
       { name := "ID", body := .consts (.scalar .string) [] }] }]

/-- A struct that extends a virtual one. -/
def inks (base : Option DeclId) : Workspace :=
  [{ name := "inks", path := "inks",
     decls := [
       { name := "named", body := .virtual [{ name := "name", type := .scalar .string }] },
       { name := "ink", extend := "named", base,
         body := .struct [{ name := "amount", type := .scalar .decimal }] }] }]

theorem resolve_keys : (resolve keys [0]).2 = .ok (graph keys [0]) :=
  resolve_eq_graph (by decide +kernel)

theorem resolve_inks : (resolve (inks none) [0]).2 = .ok (graph (inks none) [0]) :=
  resolve_eq_graph (by decide +kernel)

theorem workspace_keys : (graph keys [0]).workspace = keys := by
  rw [workspace_graph]
  rfl

theorem workspace_inks : (graph (inks none) [0]).workspace = inks (some ⟨0, 0⟩) := by
  rw [workspace_graph]
  rfl

theorem exported_names : exported "IDs" = "IDs" ∧ exported "ID" = "ID" ∧
    exported "named" = "Named" ∧ exported "ink" = "Ink" ∧ exported "name" = "Name" ∧
    exported "amount" = "Amount" := by
  refine ⟨?_, ?_, ?_, ?_, ?_, ?_⟩
  all_goals rw [exported, Naming.pascal_eq_of_all rfl]
  all_goals decide

theorem plural_ID : Naming.plural "ID" = "IDs" := by
  have hlower : Text.toLower "ID" = "id" := by
    rw [Text.toLower_eq_map_of_all rfl]
    rfl
  have hplural : Naming.pluralize "id" = "ids" := by with_unfolding_all rfl
  have hne : (Text.ofString "ids" == Text.ofString "id") = false := by decide
  simp only [Naming.plural, hlower, hplural, hne, Bool.false_eq_true, if_false]
  rfl

/-- The table that is not built takes the name of the struct. -/
theorem not_namesDistinct_keys {cfg : Config} {m : LinkedModule}
    (hm : m ∈ (graph keys [0]).modules) (hid : m.id = 0) :
    ¬ (Context.mk cfg (graph keys [0]) m).NamesDistinct := by
  have hp := (passes_of_resolve resolve_keys).1
  have hself : (Context.mk cfg (graph keys [0]) m).self.decls = keys.flatMap (·.decls) := by
    rw [Context.self, Context.workspace, workspace_keys, hid]
    rfl
  intro h
  have hreserved := h.1
  rw [(Context.reservedNames_perm (order_map_decl_perm hp hm) (body_ne_unknown hp hm)).nodup_iff,
    hself] at hreserved
  simp [keys, packageNames, typeName, deserializerName, tableName, exported_names, plural_ID,
    Decl.isInstantiable] at hreserved

theorem namesDistinct_inks {cfg : Config} {m : LinkedModule}
    (hm : m ∈ (graph (inks none) [0]).modules) (hid : m.id = 0) :
    (Context.mk cfg (graph (inks none) [0]) m).NamesDistinct := by
  have hp := (passes_of_resolve resolve_inks).1
  rw [← Context.checkNames_eq_ok_iff (order_map_decl_perm hp hm) (body_ne_unknown hp hm),
    Source.checkNames_eq_ok_iff_nodup, Context.self, Context.workspace, workspace_inks, hid]
  simp [inks, packageNames, typeName, deserializerName, exported_names, Decl.isInstantiable,
    memberNames, fieldName, getterName, Workspace.allFields, Workspace.decl?, Decl.fields]
  decide

/-- **A table that would be called like a struct** is found though it is not
built; names that are distinct are built, once each. -/
theorem keys_fail_inks_built :
    (∃ m ∈ (graph keys [0]).modules, ∀ cfg : Config, cfg.package ≠ [] →
      ∃ f, (backend cfg).artifacts (graph keys [0]) m = .error f) ∧
    (∃ m ∈ (graph (inks none) [0]).modules, ∀ cfg : Config, cfg.package ≠ [] →
      NoNameTwice (Context.mk cfg (graph (inks none) [0]) m).file.items) := by
  obtain ⟨m, hm, hid⟩ := (exists_mem_modules_iff (passes_of_resolve resolve_keys).1 (i := 0)).mpr
    ⟨_, by simp, rfl⟩
  obtain ⟨n, hn, hid'⟩ := (exists_mem_modules_iff (passes_of_resolve resolve_inks).1 (i := 0)).mpr
    ⟨_, by simp, rfl⟩
  refine ⟨⟨m, hm, fun cfg hpackage => ?_⟩, ⟨n, hn, fun cfg hpackage => ?_⟩⟩
  · obtain ⟨hdistinct, -⟩ | ⟨-, detail, hfails⟩ :=
      (names_declared_once resolve_keys hm cfg).2.2 hpackage
    · exact absurd hdistinct (not_namesDistinct_keys hm hid)
    · exact ⟨_, hfails⟩
  · obtain ⟨-, as, has⟩ | ⟨hclash, -⟩ := (names_declared_once resolve_inks hn cfg).2.2 hpackage
    · exact ((names_declared_once resolve_inks hn cfg).1 as has).1
    · exact absurd (namesDistinct_inks hn hid') hclash

end Sample

end WireModel
