import WireModel.Proofs.Link.Inline

/-!
# Indirect members — where values would hold themselves

A member is indirect if the declaration that holds it can be reached again
from what it refers to, over references that are held by value
(`ModuleGraph.RefersInline`). Linking marks these members one module at a
time, from components of references held by value, and marks recursive
declarations from components of all references. The two agree: what is held
by value is also referred to, if not by the declaration itself then by the
virtual struct that it extends (`transGen_refersTo_of_embeds`). So the two
ends of an indirect member are recursive and in one group
(`isIndirect_iff_reaches_back`).
-/

namespace WireModel

open Relation Linking

/-- **A type is a reference by value** to a declaration: a reference, or an
optional one. -/
def TypeExpr.IsInline (t : TypeExpr) (b : DeclId) : Prop :=
  t.target? = some b ∨ ∃ width r elem, t = .node .optional width r elem ∧ elem.target? = some b

/-- The members of a declaration with their types: its fields, after those of
the virtual struct that it extends, its variants, or the nameless value of a
newtype. -/
def Workspace.allMembers (w : Workspace) (d : Decl) : List (Text × TypeExpr) :=
  match d.body with
  | .struct _ | .virtual _ => (w.allFields d).map fun f => (f.name, f.type)
  | _ => d.members

/-- **A declaration holds another one by value**: it is a struct, a union or a
newtype, and a member of it is a reference to the other, or an optional one. -/
def ModuleGraph.RefersInline (g : ModuleGraph) (a b : DeclId) : Prop :=
  ∃ m d, g.Declares a m d ∧ d.isInstantiable = true ∧
    ∃ x ∈ g.workspace.allMembers d, x.2.IsInline b

/-- Without its optionality, such a type is the reference. -/
theorem TypeExpr.isInline_iff {t : TypeExpr} {b : DeclId} :
    t.IsInline b ↔ t.unwrap.target? = some b := by
  constructor
  · rintro (h | ⟨width, r, elem, rfl, h⟩)
    · exact unwrap_of_target? h
    · exact h
  · intro h
    cases t with
    | missing => cases h
    | node k width r elem =>
      by_cases hk : k = .optional
      · subst hk
        exact .inr ⟨width, r, elem, rfl, h⟩
      · have hopt : (node k width r elem).isOptional = false := by simp [isOptional, kind?, hk]
        exact .inl (unwrap_of_not_optional hopt ▸ h)

/-! ## Members and what values hold -/

section Members

variable {w : Workspace} {d : Decl} {name : Text} {b : DeclId}

/-- **What linking looks at** are the members of what has values. -/
theorem mem_inlineRefs_iff_isInline {a : DeclId} (hd : w.decl? a = some d) :
    (name, b) ∈ w.inlineRefs a ↔
      d.isInstantiable = true ∧ ∃ t, (name, t) ∈ w.allMembers d ∧ t.IsInline b := by
  simp only [Workspace.inlineRefs, hd, Workspace.allMembers, Decl.isInstantiable,
    mem_filterMap_target_iff, TypeExpr.isInline_iff]
  cases hb : d.body with
  | struct fs | union vs tag payload | newtype t => simp
  | virtual fs => simp
  | consts t cs | unknown n => simp [Decl.members, hb]

/-- A field that is taken over is one of the virtual struct that is extended. -/
theorem mem_allFields_cases {f : Field} (hf : f ∈ w.allFields d) : f ∈ d.fields ∨
    ∃ id e, d.base = some id ∧ w.decl? id = some e ∧ f ∈ e.fields := by
  unfold Workspace.allFields at hf
  split at hf
  next e he =>
    obtain ⟨id, hid, he⟩ := Option.bind_eq_some_iff.mp he
    exact (List.mem_append.mp hf).symm.imp_right fun hf => ⟨id, e, hid, he, hf⟩
  next => exact .inl hf

/-- The type of a field is one of the types of its declaration. -/
theorem Decl.type_mem_types {f : Field} (hf : f ∈ d.fields) : f.type ∈ d.types := by
  have hunion : d.kind ≠ .union := by
    intro hk
    rw [fields_eq_nil_of_union hk] at hf
    cases hf
  unfold types
  split
  next hb => exact absurd (by rw [kind, hb]; rfl) hunion
  next => exact List.mem_map.mpr ⟨_, mem_members_of_mem_fields hf, rfl⟩

/-- **A type that values hold** is one of the declaration's, or of the virtual
struct that it extends. -/
theorem exists_types_of_mem_heldTypes {x : Text × TypeExpr} (hx : x ∈ w.heldTypes d)
    (hb : x.2.unwrap.target? = some b) : (∃ t ∈ d.types, t.unwrap.target? = some b) ∨
      ∃ id e, d.base = some id ∧ w.decl? id = some e ∧
        ∃ t ∈ e.types, t.unwrap.target? = some b := by
  rw [Workspace.heldTypes] at hx
  cases hbody : d.body with
  | struct fs =>
    rw [hbody] at hx
    obtain ⟨f, hf, rfl⟩ := List.mem_map.mp hx
    rw [Field.unwrap_effectiveType] at hb
    rcases mem_allFields_cases hf with hf | ⟨id, e, hid, he, hf⟩
    · exact .inl ⟨f.type, Decl.type_mem_types hf, hb⟩
    · exact .inr ⟨id, e, hid, he, f.type, Decl.type_mem_types hf, hb⟩
  | union vs tag payload =>
    rw [hbody] at hx
    obtain ⟨v, hv, rfl⟩ := List.mem_map.mp hx
    exact .inl ⟨v.payload, by rw [Decl.types, hbody]; exact List.mem_map_of_mem hv, hb⟩
  | newtype t =>
    rw [hbody] at hx
    rw [List.mem_singleton.mp hx] at hb
    exact .inl ⟨t, by simp [Decl.types, Decl.members, hbody], hb⟩
  | virtual fs => simp [hbody] at hx
  | consts t cs => simp [hbody] at hx
  | unknown n => simp [hbody] at hx

end Members

/-! ## In a linked graph -/

section Linked

variable {w : Workspace} {ids : List Nat} {g : ModuleGraph}

/-- **Holding by value is embedding.** -/
theorem refersInline_iff_embeds {a b : DeclId} : g.RefersInline a b ↔ g.Embeds a b := by
  constructor
  · rintro ⟨m, d, hd, hinst, x, hx, hb⟩
    obtain ⟨t, ht, htarget⟩ := (mem_inlineRefs_iff hd.2).mp
      ((mem_inlineRefs_iff_isInline hd.2).mpr ⟨hinst, x.2, hx, hb⟩)
    exact ⟨m, d, hd, _, ht, htarget⟩
  · rintro ⟨m, d, hd, x, hx, hb⟩
    obtain ⟨hinst, t, ht, htarget⟩ := (mem_inlineRefs_iff_isInline hd.2).mp
      ((mem_inlineRefs_iff hd.2).mpr ⟨x.2, hx, hb⟩)
    exact ⟨m, d, hd, hinst, _, ht, htarget⟩

variable (hbases : BasesLinked w) (hg : (resolve w ids).2 = .ok g)

include hbases hg in
/-- **What a member refers to** is a declaration that has values, also for a
member of a virtual struct, which has none itself. -/
theorem exists_declares_of_isInline {a b : DeclId} {m : LinkedModule} {d : Decl}
    (hd : g.Declares a m d) {x : Text × TypeExpr} (hx : x ∈ g.workspace.allMembers d)
    (hb : x.2.IsInline b) : ∃ n e, g.Declares b n e ∧ e.isInstantiable = true := by
  have hbound : ∀ {t : TypeExpr}, g.TypeOk t → t.unwrap.target? = some b →
      ∃ n e, g.Declares b n e ∧ e.isInstantiable = true := by
    intro t ht htarget
    obtain ⟨b', n, e, hb', he, hinst⟩ :=
      ht.bound _ (TypeExpr.unwrap_mem_nodes htarget) (TypeExpr.kind?_of_target? htarget)
    obtain rfl := Option.some.inj (htarget.symm.trans hb')
    exact ⟨n, e, he, hinst⟩
  by_cases hinst : d.isInstantiable = true
  · obtain ⟨t, ht, htarget⟩ := (mem_inlineRefs_iff hd.2).mp
      ((mem_inlineRefs_iff_isInline hd.2).mpr ⟨hinst, x.2, hx, hb⟩)
    exact hbound ((linked_of_resolve hbases hg).typeOk hd _ ht) htarget
  · rw [Workspace.allMembers] at hx
    cases hbody : d.body with
    | struct fs | union vs tag payload | newtype t => simp [Decl.isInstantiable, hbody] at hinst
    | virtual fs =>
      rw [hbody] at hx
      obtain ⟨f, hf, rfl⟩ := List.mem_map.mp hx
      refine hbound (typeOk_of_mem_allFields hbases hg hd hf) ?_
      rw [Field.unwrap_effectiveType]
      exact TypeExpr.isInline_iff.mp hb
    | consts t cs => simp [Decl.members, hbody] at hx
    | unknown n => simp [Decl.members, hbody] at hx

include hbases hg in
/-- **What is held by value is referred to**, by the declaration or by the
virtual struct that it extends. -/
theorem transGen_refersTo_of_embeds {a b : DeclId} (h : g.Embeds a b) :
    TransGen g.RefersTo a b := by
  obtain ⟨m, d, hd, x, hx, hb⟩ := h
  have hto : ∀ {c n e}, g.Declares c n e → (∃ t ∈ e.types, t.unwrap.target? = some b) →
      g.RefersTo c b := by
    rintro c n e he ⟨t, ht, htarget⟩
    exact ⟨n, e, he, .inr ⟨t, ht,
      List.mem_filterMap.mpr ⟨_, TypeExpr.unwrap_mem_nodes htarget, htarget⟩⟩⟩
  obtain ⟨hp, rfl⟩ := passes_of_resolve hg
  rcases exists_types_of_mem_heldTypes hx hb with hown | ⟨id, e, hbase, he, htaken⟩
  · exact .single (hto hd hown)
  · obtain ⟨⟨n, e', he'⟩, -⟩ := of_base hp hbases hd hbase
    obtain rfl : e = e' := Option.some.inj (he.symm.trans he'.2)
    exact .tail (.single ⟨m, d, hd, .inl hbase⟩) (hto he' htaken)

include hbases hg in
/-- The members of a declaration have distinct names. -/
theorem nodup_allMembers {a : DeclId} {m : LinkedModule} {d : Decl} (hd : g.Declares a m d) :
    ((g.workspace.allMembers d).map (·.1)).Nodup := by
  have hl := linked_of_resolve hbases hg
  rw [Workspace.allMembers]
  cases hbody : d.body with
  | struct fs | virtual fs =>
    rw [List.map_map]
    exact hl.fields_nodup hd
  | union vs tag payload =>
    have hvariants := hl.variants_nodup hd
    rw [Decl.variants, hbody] at hvariants
    rw [Decl.members, hbody, List.map_map]
    exact hvariants
  | newtype t => simp [Decl.members, hbody]
  | consts t cs => simp [Decl.members, hbody]
  | unknown n => simp [Decl.members, hbody]

include hbases hg in
/-- **The two ends of a reference by value that leads back** are recursive, and
in one group of their module. -/
theorem recursive_of_embeds {a b : DeclId} {m : LinkedModule} {d : Decl} (hd : g.Declares a m d)
    (hab : g.Embeds a b) (hback : ReflTransGen g.Embeds b a) :
    m.isRecursive a = true ∧ m.isRecursive b = true ∧
      ∃ n, m.component? a = some n ∧ m.component? b = some n := by
  have hto : TransGen g.RefersTo a b := transGen_refersTo_of_embeds hbases hg hab
  have hfrom : ReflTransGen g.RefersTo b a := hback.lift' id fun _ _ h =>
    (transGen_refersTo_of_embeds hbases hg h).to_reflTransGen
  obtain ⟨hrec, ⟨n, hn⟩, hgroup⟩ := isRecursive_iff hbases hg hd
  have ha : m.isRecursive a = true := hrec.mpr (hto.trans_left hfrom)
  rcases reflTransGen_iff_eq_or_transGen.mp hfrom with rfl | hfrom
  · exact ⟨ha, ha, n, hn, hn⟩
  -- what leads back to a module has not left it
  obtain ⟨e, hb⟩ : ∃ e, g.Declares b m e := by
    obtain ⟨hp, rfl⟩ := passes_of_resolve hg
    have hdown := descends_embeds hp hbases
    have hmod : b.module = a.module := (hdown.within (passes_iff.mp hp).1.imports_acyclic
      (.single hab) (hdown.reflTransGen hback)).2
    obtain ⟨m', d', hd', x, hx, htarget⟩ := hab
    obtain ⟨⟨n', e, he⟩, -⟩ := of_heldTypes hp hbases hd' hx htarget
    exact ⟨e, (ModuleGraph.moduleOf?_congr hmod).trans hd.1, he.2⟩
  by_cases hne : b = a
  · exact ⟨ha, hne ▸ ha, n, hn, hne ▸ hn⟩
  · exact ⟨ha, (isRecursive_iff hbases hg hb).1.mpr (hfrom.trans hto), n, hn,
      ((hgroup b e hb hne).mpr ⟨hto, hfrom⟩).trans hn⟩

/-- **Indirect members are those that lead back.** In a graph that linking
gives, for every declaration of a module and every name:

* the module calls the member of that name indirect exactly when its type is a
  reference, bare or optional, to something from which the declaration is
  reached over references held by value, through whatever modules;
* then the declaration and what the member refers to are both recursive, and
  have the number of the same group. -/
theorem isIndirect_iff_reaches_back (hbases : BasesLinked w) (hg : (resolve w ids).2 = .ok g)
    {a : DeclId} {m : LinkedModule} {d : Decl} (hd : g.Declares a m d) (name : Text) :
    (m.isIndirect a name = true ↔ ∃ t b, (name, t) ∈ g.workspace.allMembers d ∧ t.IsInline b ∧
      ReflTransGen g.RefersInline b a) ∧
    (m.isIndirect a name = true → ∀ t b, (name, t) ∈ g.workspace.allMembers d → t.IsInline b →
      m.isRecursive a = true ∧ m.isRecursive b = true ∧
        ∃ n, m.component? a = some n ∧ m.component? b = some n) := by
  have hsteps : g.RefersInline = g.Embeds :=
    funext fun _ => funext fun _ => propext refersInline_iff_embeds
  rw [isIndirect_iff hbases hg hd, hsteps]
  -- the members that linking looks at, by what they refer to
  have hheld : ∀ {b}, (∃ t, (name, t) ∈ g.workspace.heldTypes d ∧ t.unwrap.target? = some b) ↔
      d.isInstantiable = true ∧ ∃ t, (name, t) ∈ g.workspace.allMembers d ∧ t.IsInline b :=
    fun {b} => (mem_inlineRefs_iff hd.2).symm.trans (mem_inlineRefs_iff_isInline hd.2)
  refine ⟨⟨?_, ?_⟩, ?_⟩
  · rintro ⟨t, b, ht, hb, hback⟩
    obtain ⟨-, t', ht', hb'⟩ := hheld.mp ⟨t, ht, hb⟩
    exact ⟨t', b, ht', hb', hback⟩
  · rintro ⟨t, b, ht, hb, hback⟩
    -- what is reached has values, so a virtual struct is not
    have hinst : d.isInstantiable = true := by
      obtain ⟨n, e, he, hinst⟩ := exists_declares_of_isInline hbases hg hd ht hb
      rcases hback.cases_tail with rfl | ⟨c, -, hca⟩
      · rwa [(hd.unique he).2] at hinst
      · obtain ⟨n', e', he', -, x, hx, hxa⟩ := refersInline_iff_embeds.mpr hca
        obtain ⟨n'', e'', he'', hinst'⟩ := exists_declares_of_isInline hbases hg he' hx hxa
        rwa [(hd.unique he'').2] at hinst'
    obtain ⟨t', ht', hb'⟩ := hheld.mpr ⟨hinst, t, ht, hb⟩
    exact ⟨t', b, ht', hb', hback⟩
  · rintro ⟨t', b', ht', hb', hback⟩ t b ht hb
    obtain ⟨-, t'', ht'', hb''⟩ := hheld.mp ⟨t', ht', hb'⟩
    -- the name stands for one member
    obtain rfl : t = t'' := congrArg Prod.snd
      (List.inj_on_of_nodup_map (nodup_allMembers hbases hg hd) ht ht'' rfl)
    rw [TypeExpr.isInline_iff] at hb hb''
    obtain rfl : b = b' := Option.some.inj (hb.symm.trans hb'')
    exact recursive_of_embeds hbases hg hd ⟨m, d, hd, _, ht', hb'⟩ hback

end Linked

namespace Sample

/-- A struct that holds itself by a field that it takes over, through a union
and a newtype. -/
def forest : Workspace :=
  [{ name := "forest", path := "forest",
     decls :=
       [{ name := "Grown", body := .virtual [free "parent" (.optional (.ref [] "Plant"))] },
         { name := "Twig", extend := "Grown", body := .struct [] },
         { name := "Plant",
           body := .union
             [{ name := "wood", payload := .ref [] "Wood" }, { name := "gone" }] [] [] },
         { name := "Wood", body := .newtype (.ref [] "Twig") }] }]

theorem basesLinked_forest : BasesLinked forest := by
  unfold BasesLinked
  decide

theorem resolve_forest : (resolve forest [0]).2 = .ok (graph forest [0]) :=
  resolve_eq_graph (by decide +kernel)

/-- A reference to a declaration of the forest, bound. -/
def boundTo (name : Text) (i : Nat) : TypeExpr :=
  .node .ref 0 (some ⟨[], name, some ⟨0, i⟩⟩) .missing

/-- The struct once it is linked. -/
def twig : Decl :=
  { name := "Twig", extend := "Grown", base := some ⟨0, 0⟩, body := .struct [] }

/-- The union once it is linked. -/
def plant : Decl :=
  { name := "Plant"
    body := .union [{ name := "wood", payload := boundTo "Wood" 3 }, { name := "gone" }] [] [] }

/-- The newtype once it is linked. -/
def wood : Decl := { name := "Wood", body := .newtype (boundTo "Twig" 1) }

/-- Its field is a reference to the union, which leads back to it. -/
theorem twig_reaches_back : ∃ m, (graph forest [0]).Declares ⟨0, 1⟩ m twig ∧
    ∃ t, (Text.ofString "parent", t) ∈ (graph forest [0]).workspace.allMembers twig ∧
      t.IsInline ⟨0, 2⟩ ∧ ReflTransGen (graph forest [0]).RefersInline ⟨0, 2⟩ ⟨0, 1⟩ := by
  have hp := (passes_of_resolve resolve_forest).1
  obtain ⟨m, hm⟩ : ∃ m, (graph forest [0]).Declares ⟨0, 1⟩ m twig :=
    exists_declares_of_bound hp ⟨by simp, rfl⟩ rfl
  have hplant : (graph forest [0]).RefersInline ⟨0, 2⟩ ⟨0, 3⟩ :=
    ⟨m, plant, ⟨hm.1, by rw [workspace_graph]; rfl⟩, rfl, _, List.mem_cons_self, .inl rfl⟩
  have hwood : (graph forest [0]).RefersInline ⟨0, 3⟩ ⟨0, 1⟩ :=
    ⟨m, wood, ⟨hm.1, by rw [workspace_graph]; rfl⟩, rfl, _, List.mem_cons_self, .inl rfl⟩
  have hfield : (graph forest [0]).workspace.allMembers twig =
      [(Text.ofString "parent", .optional (boundTo "Plant" 2))] := by rw [workspace_graph]; rfl
  refine ⟨m, hm, .optional (boundTo "Plant" 2), ?_, .inr ⟨_, _, boundTo "Plant" 2, rfl, rfl⟩,
    .tail (.single hplant) hwood⟩
  rw [hfield]
  exact List.mem_singleton.mpr rfl

/-- **The field is indirect**, and in one group with the union. -/
theorem twig_isIndirect : BasesLinked forest ∧ (resolve forest [0]).2 = .ok (graph forest [0]) ∧
    ∃ m, (graph forest [0]).Declares ⟨0, 1⟩ m twig ∧ m.isIndirect ⟨0, 1⟩ "parent" = true ∧
      m.isRecursive ⟨0, 2⟩ = true ∧
      ∃ n, m.component? ⟨0, 1⟩ = some n ∧ m.component? ⟨0, 2⟩ = some n := by
  obtain ⟨m, hm, t, ht, hb, hback⟩ := twig_reaches_back
  obtain ⟨hiff, hgroup⟩ :=
    isIndirect_iff_reaches_back basesLinked_forest resolve_forest hm "parent"
  have hind : m.isIndirect ⟨0, 1⟩ "parent" = true := hiff.mpr ⟨t, ⟨0, 2⟩, ht, hb, hback⟩
  obtain ⟨-, hrec, hcomp⟩ := hgroup hind t ⟨0, 2⟩ ht hb
  exact ⟨basesLinked_forest, resolve_forest, m, hm, hind, hrec, hcomp⟩

end Sample

end WireModel
