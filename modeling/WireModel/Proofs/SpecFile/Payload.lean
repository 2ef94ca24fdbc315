import WireModel.Proofs.Link.Bindings
import WireModel.Proofs.Spec.Index
import WireModel.Proofs.SpecFile.Declare

/-!
# Payloads — inline fields get a struct of their own

The name of the struct for the inline fields of a variant is put together
from two names without a mark between them, so it may be the name of
another such struct, or of a model. Then the module is not valid, and
linking refuses it. In a module that is linked every declaration stands at
the place of its origin and is found by its name, and the payload of a
variant with inline fields is bound to the struct of just these
(`SpecFile.inline_payloads`).
-/

namespace WireModel

open Linking

namespace SpecFile

/-- The place of the declaration with an origin, in a module to which the
declarations of a file are added. -/
def place (f : SpecFile) (m : Module) (o : Origin) : Nat := m.decls.length + f.origins.idxOf o

/-- **Inline fields have structs of their own** in the linked module of a
file: `m` is the module before the declarations of the file were added, and
`i` the number of the module. -/
structure OwnStructs (f : SpecFile) (m : Module) (i : Nat) (lm : Module) : Prop where
  /-- Different origins have different places. -/
  distinct : ∀ o o', f.Writes o → f.Writes o' → f.place m o = f.place m o' → o = o'
  /-- What was declared before is still there. -/
  kept : ∀ k < m.decls.length, (lm.decls[k]?).map (·.unbound) = (m.decls[k]?).map (·.unbound)
  /-- Every other declaration is at the place of an origin. -/
  covered : ∀ k, m.decls.length ≤ k → k < lm.decls.length → ∃ o, f.Writes o ∧ f.place m o = k
  /-- At the place of an origin is the declaration that stems from it, and
  its name leads there, by a scan as by the index. -/
  found : ∀ o, f.Writes o → ∃ d d₀, lm.decls[f.place m o]? = some d ∧
    f.Stems o d₀ ∧ d.unbound = d₀.unbound ∧
    lm.find? d.name = some (f.place m o) ∧ (lm.lookup d.name).1 = some (f.place m o)
  /-- The payload of a variant with inline fields is bound to the struct of
  these. -/
  bound : ∀ a k, f.Writes (.payload a k) → ∃ e v d x r,
    f.models[a]? = some (some e) ∧ e.type.variants[k]? = some (some v) ∧
    lm.decls[f.place m (.model a)]? = some d ∧ d.name = e.name ∧
    d.variants[k]? = some x ∧ x.name = v.name ∧
    x.payload = .node .ref 0 (some r) .missing ∧
    r.target = some ⟨i, f.place m (.payload a k)⟩

variable {f : SpecFile} {m m' : Module} {w : Workspace} {ids : List Nat} {i : Nat}

/-- **At the place of an origin** is the declaration that stems from it. -/
theorem stems_at_place {ds : List Decl} (hds : List.Forall₂ f.Stems f.origins ds) {o : Origin}
    (ho : f.Writes o) : ∃ d, (m.add ds).decls[f.place m o]? = some d ∧ f.Stems o d := by
  have hmem : o ∈ f.origins := mem_origins_iff.mpr ho
  have hlt : f.origins.idxOf o < f.origins.length := List.idxOf_lt_length_iff.mpr hmem
  obtain ⟨hlen, hget⟩ := List.forall₂_iff_get.mp hds
  have hstems := hget _ hlt (by omega)
  rw [List.get_eq_getElem, List.get_eq_getElem, List.getElem_idxOf] at hstems
  refine ⟨_, ?_, hstems⟩
  have happ : (m.add ds).decls = m.decls ++ ds := rfl
  rw [happ, place, List.getElem?_append_right (by omega), Nat.add_sub_cancel_left]
  exact List.getElem?_eq_getElem (by omega)

/-- Different origins have different places. -/
theorem place_inj {o o' : Origin} (ho : f.Writes o) (h : f.place m o = f.place m o') :
    o = o' := by
  have hidx : f.origins.idxOf o = f.origins.idxOf o' := by
    unfold place at h
    omega
  exact (List.idxOf_inj (mem_origins_iff.mpr ho)).mp hidx

/-- Behind the declarations from before every place is that of an origin. -/
theorem exists_place {k : Nat} (hk : m.decls.length ≤ k)
    (hk' : k < m.decls.length + f.origins.length) : ∃ o, f.Writes o ∧ f.place m o = k := by
  have hlt : k - m.decls.length < f.origins.length := by omega
  refine ⟨f.origins[k - m.decls.length], mem_origins_iff.mp (List.getElem_mem hlt), ?_⟩
  rw [place, (nodup_origins f).idxOf_getElem]
  omega

section Stems

variable {a k : Nat} {e : ModelEntry} {v : VariantEntry} {fs : List (Option FieldEntry)} {d : Decl}

/-- **An enum** has the name of its model, and its variants with inline
fields refer to the structs of these. -/
theorem Stems.of_model (h : f.Stems (.model a) d) (he : f.models[a]? = some (some e))
    (henum : e.type.name = "enum") (hv : e.type.variants[k]? = some (some v))
    (hfs : v.fields = some fs) : d.name = e.name ∧ ∃ x, d.variants[k]? = some x ∧
      x.name = v.name ∧ x.payload = .ref [] (payloadName e.name v.name) := by
  cases h with
  | @model _ e' body more he' hbody =>
    obtain rfl : e = e' := by simpa using he.symm.trans he'
    obtain ⟨xs, hvs, rfl⟩ := ModelEntry.of_body_enum hbody henum
    obtain ⟨x, es, hvariant, hx⟩ := VariantEntry.exists_of_variantList hvs hv
    obtain ⟨fields, -, rfl, -⟩ := VariantEntry.of_variant_inline hvariant hfs
    exact ⟨rfl, _, hx, rfl, rfl⟩

/-- **The struct of inline fields** has the name that is made for it, and
values. -/
theorem Stems.of_payload (h : f.Stems (.payload a k) d) (he : f.models[a]? = some (some e))
    (hv : e.type.variants[k]? = some (some v)) :
    d.name = payloadName e.name v.name ∧ d.isInstantiable = true := by
  cases h with
  | @payload _ _ e' v' fs' fields he' henum hv' hfs' hfields =>
    obtain rfl : e = e' := by simpa using he.symm.trans he'
    obtain rfl : v = v' := by simpa using hv.symm.trans hv'
    exact ⟨rfl, rfl⟩

end Stems

/-- Linking keeps the names of the declarations. -/
theorem names_linkModule {u : Workspace} : (linkModule u i m).decls.map (·.name) =
    m.decls.map (·.name) := by
  unfold linkModule
  rw [List.map_map]
  rfl

/-- **A declaration of a valid module is found** by its name once the module
is linked, by a scan as by the index. -/
theorem found_linkModule {u : Workspace} {ps : List (Text × Nat)} (hindex : m.IndexOk)
    (hvalid : m.errors = []) {k : Nat} {d : Decl} (hd : m.decls[k]? = some d) :
    (linkModule u i (m.bindImports ps)).find? d.name = some k ∧
      ((linkModule u i (m.bindImports ps)).lookup d.name).1 = some k := by
  have hscan : (linkModule u i (m.bindImports ps)).find? d.name = m.find? d.name :=
    List.findIdx?_map
  have hfind := hscan.trans (Module.find?_of_valid hvalid hd)
  have hok : (linkModule u i (m.bindImports ps)).IndexOk := hindex.of_names rfl names_linkModule
  exact ⟨hfind, (Module.lookup_eq_find? hok _).trans hfind⟩

/-- **The name that is made for inline fields** refers to their struct. -/
theorem target?_payloadName {ds : List Decl} (hp : Passes w ids)
    (hgiven : Given w ids i (m.add ds)) (hds : List.Forall₂ f.Stems f.origins ds) {a k : Nat}
    {e : ModelEntry} {v : VariantEntry} (hw : f.Writes (.payload a k))
    (he : f.models[a]? = some (some e)) (hv : e.type.variants[k]? = some (some v)) :
    (withImports w ids).target? ((m.add ds).bindImports (paths w ids)) i
      { ns := [], name := payloadName e.name v.name } = some ⟨i, f.place m (.payload a k)⟩ := by
  obtain ⟨s, hs, hstems⟩ := stems_at_place (m := m) hds hw
  obtain ⟨hname, hinst⟩ := hstems.of_payload he hv
  -- a reference without an alias looks into the module itself
  exact (target?_eq_some_iff hp.registered hp.imports hgiven).mpr
    ⟨s, ⟨.inl ⟨rfl, rfl⟩, (hgiven.decl? _ rfl).trans hs, hname⟩, hinst⟩

/-- **Inline payloads get their own struct.** In the linked module of a file
the payload of every variant with inline fields is bound to the struct of
just these fields, no other declaration stands in its place, and it stands
in the place of no other. -/
theorem inline_payloads (hdeclare : f.declare m = .ok m') (hindex : m.IndexOk)
    (hgiven : Given w ids i m') {g : ModuleGraph} (h : (resolve w ids).2 = .ok g) :
    ∃ lm, g.workspace[i]? = some lm ∧ f.OwnStructs m i lm := by
  obtain ⟨hp, rfl⟩ := passes_of_resolve h
  obtain ⟨ds, rfl, hds⟩ := stems_of_declare hdeclare
  have hvalid := (passes_iff.mp hp).1.valid i _ hgiven
  -- the linked module is the given one, declaration by declaration
  set link := linkDecl (withImports w ids) ((m.add ds).bindImports (paths w ids)) i with hlink
  set lm := linkModule (withImports w ids) i ((m.add ds).bindImports (paths w ids)) with hlm
  have hdecls : ∀ k, lm.decls[k]? = ((m.add ds).decls[k]?).map link := fun k => List.getElem?_map
  refine ⟨lm, getElem?_linked hp.registered hp.references hgiven, ?_⟩
  refine
    { distinct := fun o o' ho _ => place_inj ho
      kept := ?_
      covered := ?_
      found := ?_
      bound := ?_ }
  · intro k hk
    have hsame : (m.add ds).decls[k]? = m.decls[k]? := List.getElem?_append_left hk
    rw [hdecls, hsame, Option.map_map]
    exact congrArg (Option.map · _) (funext fun d => unbound_linkDecl)
  · intro k hk hk'
    have hlen : lm.decls.length = m.decls.length + f.origins.length := by
      rw [hds.length_eq, ← List.length_append]
      exact List.length_map _
    exact exists_place hk (hlen ▸ hk')
  · intro o ho
    obtain ⟨d₀, hd₀, hstems⟩ := stems_at_place (m := m) hds ho
    obtain ⟨hfind, hindexed⟩ := found_linkModule (hindex.add ds) hvalid hd₀
    refine ⟨link d₀, d₀, ?_, hstems, unbound_linkDecl, hfind, hindexed⟩
    rw [hdecls, hd₀]
    rfl
  · intro a k hw
    have ⟨e, v, fs, he, henum, hv, hfs⟩ := hw
    obtain ⟨d₀, hd₀, hmodel⟩ := stems_at_place (m := m) hds (o := .model a) ⟨e, he⟩
    obtain ⟨hname, x, hx, hxname, hpayload⟩ := hmodel.of_model he henum hv hfs
    let r : Ref := { ns := [], name := payloadName e.name v.name }
    let target := (withImports w ids).target? ((m.add ds).bindImports (paths w ids)) i
    have htarget : target r = some ⟨i, f.place m (.payload a k)⟩ :=
      target?_payloadName hp hgiven hds hw he hv
    refine ⟨e, v, link d₀, { x with payload := x.payload.bindRefs target },
      { r with target := target r }, he, hv, ?_, hname, ?_, hxname, ?_, htarget⟩
    · rw [hdecls, hd₀]
      rfl
    · rw [hlink, variants_linkDecl, List.getElem?_map, hx]
      rfl
    · dsimp only
      rw [hpayload]
      rfl

end SpecFile

namespace Sample

/-- The field of a box, as it is written. -/
def side : FieldEntry :=
  { name := "side", type := .form "i32" [] .absent .absent [] [], required := true }

/-- An enum with a variant that has a field of its own, and a model whose
name is nearly that of its struct. -/
def drawing : SpecFile :=
  { models :=
      [some { name := "Shape"
              type := { name := "enum"
                        variants := [some { name := "dot" },
                          some { name := "box", fields := some [some side] }] } },
        some { name := "ShapePayload", type := { name := "struct" } }] }

/-- The module it is put into. -/
def sheet : Module := { name := "sheet", path := "sheet" }

/-- The module once it has the declarations of the file. -/
def drawn : Module :=
  sheet.add
    [{ name := "Shape"
       body := .union
        [{ name := "dot" }, { name := "box", payload := .ref [] "ShapeboxPayload" }] [] [] },
      { name := "ShapeboxPayload"
        body := .struct [{ name := "side", type := .int 32, required := true }] },
      { name := "ShapePayload", body := .struct [] }]

theorem declare_drawing : drawing.declare sheet = .ok drawn := by with_unfolding_all rfl

theorem resolve_drawn : (resolve [drawn] [0]).2 = .ok (graph [drawn] [0]) :=
  resolve_eq_graph (by decide +kernel)

/-- The box of the drawing has a struct of its own. -/
theorem drawing_ownStructs : drawing.declare sheet = .ok drawn ∧ Given [drawn] [0] 0 drawn ∧
    ∃ lm, (graph [drawn] [0]).workspace[0]? = some lm ∧ drawing.OwnStructs sheet 0 lm := by
  have hindex : sheet.IndexOk := .of_none rfl
  have hgiven : Given [drawn] [0] 0 drawn := ⟨List.mem_singleton.mpr rfl, rfl⟩
  exact ⟨declare_drawing, hgiven,
    SpecFile.inline_payloads declare_drawing hindex hgiven resolve_drawn⟩

end Sample

end WireModel
