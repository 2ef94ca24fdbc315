import WireModel.Source.Build
import WireModel.Proofs.Link.Inline

/-!
# The size of generated types

A struct type has room for the values of its fields, and a defined type for
those of the type it is defined as. A type that holds itself so would have
no finite size, and the target language refuses it. The types generated
for a graph that linking gives do not: a member on a circle of embeddings
that is a struct or a newtype gets a pointer, and what is between other
members and the declarations they lead to is a pointer, a slice, a table
or an interface (`holdsByValue_acyclic`).
-/

namespace WireModel

open Relation Linking Source

/-! ## What a generated type is made of -/

namespace Source

/-- The types that a declared type has room for: those of the fields of a
struct, or the one it is defined as. -/
def Item.parts : Item → List TypeTerm
  | .struct _ fields => fields.map (·.type)
  | .defined _ t => [t]
  | _ => []

namespace Context

variable {c : Context} {a : DeclId} {d : Decl}

/-- The parts of the type generated for a declaration, which is declared
first. -/
def typeParts (c : Context) (a : DeclId) : List TypeTerm :=
  ((c.items a).head?.map fun x => x.item.parts).getD []

/-- **The type of a struct or newtype is made of the types of its members**,
whether the newtype is a struct around its value or is defined as it. -/
theorem typeParts_eq (hd : c.workspace.decl? a = some d)
    (hk : d.kind = .struct ∨ d.kind = .newtype) :
    c.typeParts a = (c.workspace.heldTypes d).map fun x => c.memberType a x.1 x.2 := by
  have hdecl : c.decl a = d := by rw [decl, hd, Option.getD_some]
  rw [typeParts, items, hdecl, Workspace.heldTypes]
  cases hb : d.body with
  | struct fs => simp [structItems, Item.parts, Function.comp_def]
  | newtype t =>
    simp only [newtypeItems, List.head?_cons, Option.map_some, Option.getD_some, List.map_cons,
      List.map_nil]
    split
    · rfl
    · -- a type that is defined as the wrapped one is no pointer to it
      rename_i hwrap
      have hbox : c.isBoxed a [] t = false := by
        simp only [isWrapper, Bool.or_eq_true, not_or, Bool.not_eq_true] at hwrap
        exact hwrap.1.1
      rw [Item.parts, memberType, if_neg (by simp [hbox])]
  | _ => simp [Decl.kind, hb, Body.kind] at hk

/-- **A type that is a bare name** is so as a member only if it is not held by
pointer. -/
theorem memberType_eq_name {name : Text} {t : TypeExpr} {n : Name}
    (h : c.memberType a name t = .name n) :
    c.isBoxed a name t = false ∧ c.typeTerm t = .name n := by
  rw [memberType] at h
  split at h
  · cases h
  · rename_i hbox
    exact ⟨by simpa using hbox, h⟩

end Context

end Source

/-! ## Types that are names of structs and newtypes -/

section Named

variable {c : Context} {t : TypeExpr} {b : DeclId} {e : Decl}

/-- An optional of a struct or newtype is a pointer. -/
theorem isNilable_of_target? {w : Workspace} (ht : t.target? = some b)
    (he : w.decl? b = some e) (hk : e.kind = .struct ∨ e.kind = .newtype) :
    Reader.isNilable w t = false := by
  have hbox := isBoxable_iff.mpr ⟨b, e, ht, he, hk⟩
  simp only [Reader.isBoxable, Bool.and_eq_true, Bool.or_eq_true, beq_iff_eq] at hbox
  cases t with
  | missing => rfl
  | node k width r elem =>
    obtain rfl : k = .ref := Option.some.inj hbox.1
    rcases hbox.2 with hshape | hshape <;> simp [Reader.isNilable, hshape]

/-- The type of a bare reference is the name of what it leads to. -/
theorem typeTerm_of_target? (ht : t.target? = some b) (he : c.workspace.decl? b = some e) :
    c.typeTerm t = .name (c.nameOf b (typeName e)) := by
  have hdecl : c.decl b = e := by rw [Context.decl, he, Option.getD_some]
  cases t with
  | missing => cases ht
  | node k width r elem =>
    obtain rfl : k = .ref := Option.some.inj (TypeExpr.kind?_of_target? ht)
    cases r with
    | none => cases ht
    | some r =>
      have hr : r.target = some b := ht
      simp only [Context.typeTerm, Option.bind_some, hr, hdecl]

/-- **A type whose reference leads to a struct or newtype is a bare name only
if it is that reference**, and not an optional one. -/
theorem target?_of_typeTerm_eq_name (ht : t.unwrap.target? = some b)
    (he : c.workspace.decl? b = some e) (hk : e.kind = .struct ∨ e.kind = .newtype) {n : Name}
    (hname : c.typeTerm t = .name n) : t.target? = some b := by
  by_cases hopt : t.isOptional = true
  · exfalso
    cases t with
    | missing => cases hopt
    | node k width r elem =>
      obtain rfl : k = .optional := by simpa [TypeExpr.isOptional, TypeExpr.kind?] using hopt
      have helem : elem.target? = some b := ht
      simp [Context.typeTerm, isNilable_of_target? helem he hk] at hname
  · rwa [TypeExpr.unwrap_of_not_optional (by simpa using hopt)] at ht

end Named

/-! ## Holding by value -/

/-- **The type generated for a declaration holds that of another one by
value**: both are structs or newtypes, a member of the first one leads to
the second one, and the part of the generated type that stands for the
member is the bare name of the second one's type. -/
def ModuleGraph.HoldsByValue (g : ModuleGraph) (cfg : Config) (a b : DeclId) : Prop :=
  ∃ m d n e, g.Declares a m d ∧ g.Declares b n e ∧
    (d.kind = .struct ∨ d.kind = .newtype) ∧ (e.kind = .struct ∨ e.kind = .newtype) ∧
    ∃ (i : Nat) (x : Text × TypeExpr), (g.workspace.heldTypes d)[i]? = some x ∧
      x.2.unwrap.target? = some b ∧
      (Context.typeParts ⟨cfg, g, m⟩ a)[i]? =
        some (.name ((⟨cfg, g, m⟩ : Context).nameOf b (typeName e)))

section HoldsByValue

variable {g : ModuleGraph} {cfg : Config} {a b : DeclId}

/-- **What is held by value** is what a member leads to that is a bare
reference and is not marked. -/
theorem holdsByValue_iff : g.HoldsByValue cfg a b ↔
    ∃ m d n e, g.Declares a m d ∧ g.Declares b n e ∧
      (d.kind = .struct ∨ d.kind = .newtype) ∧ (e.kind = .struct ∨ e.kind = .newtype) ∧
      ∃ x ∈ g.workspace.heldTypes d, x.2.target? = some b ∧ m.isIndirect a x.1 = false := by
  refine exists₄_congr fun m d n e => and_congr_right fun hd => and_congr_right fun he =>
    and_congr_right fun hkd => and_congr_right fun hke => ?_
  let c : Context := ⟨cfg, g, m⟩
  have hparts : c.typeParts a = (g.workspace.heldTypes d).map fun x => c.memberType a x.1 x.2 :=
    Context.typeParts_eq (c := c) hd.2 hkd
  have hdecl : c.workspace.decl? b = some e := he.2
  constructor
  · rintro ⟨i, x, hx, htarget, hpart⟩
    rw [hparts, List.getElem?_map, hx, Option.map_some] at hpart
    obtain ⟨hbox, hname⟩ := Context.memberType_eq_name (Option.some.inj hpart)
    have hbare : x.2.target? = some b := target?_of_typeTerm_eq_name htarget hdecl hke hname
    refine ⟨x, List.mem_of_getElem? hx, hbare, ?_⟩
    rwa [Context.isBoxed, Reader.isBoxed, isBoxable_iff.mpr ⟨b, e, hbare, hdecl, hke⟩,
      Bool.true_and] at hbox
  · rintro ⟨x, hmem, hbare, hmark⟩
    obtain ⟨i, hx⟩ := List.getElem?_of_mem hmem
    refine ⟨i, x, hx, TypeExpr.unwrap_of_target? hbare, ?_⟩
    have hbox : c.isBoxed a x.1 x.2 = false := by
      rw [Context.isBoxed, Reader.isBoxed]
      exact (congrArg _ hmark).trans (Bool.and_false _)
    rw [hparts, List.getElem?_map, hx, Option.map_some, Context.memberType,
      if_neg (by simp [hbox]), typeTerm_of_target? hbare hdecl]

/-- So it is embedded. -/
theorem embeds_of_holdsByValue (h : g.HoldsByValue cfg a b) : g.Embeds a b := by
  obtain ⟨m, d, n, e, hd, -, -, -, x, hx, htarget, -⟩ := holdsByValue_iff.mp h
  exact ⟨m, d, hd, x, hx, TypeExpr.unwrap_of_target? htarget⟩

/-- **Generated types have finite size.** In a graph that linking gives no
generated type holds itself by value, directly or through others, over
all declarations of all modules. -/
theorem holdsByValue_acyclic {w : Workspace} {ids : List Nat} (hbases : BasesLinked w)
    (hg : (resolve w ids).2 = .ok g) (cfg : Config) (a : DeclId) :
    ¬ TransGen (g.HoldsByValue cfg) a a := by
  intro h
  obtain ⟨b, hab, hback⟩ := TransGen.head'_iff.mp h
  obtain ⟨m, d, n, e, hd, -, -, -, x, hx, htarget, hmark⟩ := holdsByValue_iff.mp hab
  -- the way back makes linking mark the first member of the chain, which then is a pointer
  have hembeds : ReflTransGen g.Embeds b a := hback.lift id fun _ _ => embeds_of_holdsByValue
  have hind : m.isIndirect a x.1 = true :=
    (isIndirect_iff hbases hg hd).mpr
      ⟨x.2, b, hx, TypeExpr.unwrap_of_target? htarget, hembeds⟩
  rw [hmark] at hind
  cases hind

end HoldsByValue

namespace Sample

/-- Two declarations on a circle of mandatory members, and a struct that leads
into it. -/
def knots : Workspace :=
  [{ name := "knots", path := "knots",
     decls :=
       [{ name := "Knot", body := .struct [required "loop" (.ref [] "Loop")] },
         { name := "Loop", body := .newtype (.ref [] "Knot") },
         { name := "Rope", body := .struct [required "knot" (.ref [] "Knot")] }] }]

theorem basesLinked_knots : BasesLinked knots := by
  unfold BasesLinked
  decide

theorem resolve_knots : (resolve knots [0]).2 = .ok (graph knots [0]) :=
  resolve_eq_graph (by decide +kernel)

/-- A bound reference of the module. -/
def knotRef (name : Text) (index : Nat) : TypeExpr :=
  .node .ref 0 (some ⟨[], name, some ⟨0, index⟩⟩) .missing

/-- The module once it is linked. -/
def knotsModule : LinkedModule :=
  analyze (linked knots [0]) 0 (dependencies (linked knots [0]) 0)

/-! Its declarations. -/

theorem declares_knot : (graph knots [0]).Declares ⟨0, 0⟩ knotsModule
    { name := "Knot", body := .struct [required "loop" (knotRef "Loop" 1)] } :=
  declares_analyze (passes_of_resolve resolve_knots).1 ⟨by simp, rfl⟩ (by rw [workspace_graph]; rfl)

theorem declares_loop : (graph knots [0]).Declares ⟨0, 1⟩ knotsModule
    { name := "Loop", body := .newtype (knotRef "Knot" 0) } :=
  declares_analyze (passes_of_resolve resolve_knots).1 ⟨by simp, rfl⟩ (by rw [workspace_graph]; rfl)

theorem declares_rope : (graph knots [0]).Declares ⟨0, 2⟩ knotsModule
    { name := "Rope", body := .struct [required "knot" (knotRef "Knot" 0)] } :=
  declares_analyze (passes_of_resolve resolve_knots).1 ⟨by simp, rfl⟩ (by rw [workspace_graph]; rfl)

/-- What a knot embeds does not lead to the rope. -/
theorem embedded_in_knot {b : DeclId}
    (h : ReflTransGen (graph knots [0]).Embeds ⟨0, 0⟩ b) : b = ⟨0, 0⟩ ∨ b = ⟨0, 1⟩ := by
  induction h with
  | refl => exact .inl rfl
  | tail _ hs ih =>
    obtain ⟨m, d, hd, x, hx, htarget⟩ := hs
    rcases ih with rfl | rfl
    · obtain ⟨-, rfl⟩ := declares_knot.unique hd
      obtain rfl := List.mem_singleton.mp hx
      exact .inr (Option.some.inj htarget).symm
    · obtain ⟨-, rfl⟩ := declares_loop.unique hd
      obtain rfl := List.mem_singleton.mp hx
      exact .inl (Option.some.inj htarget).symm

/-- **The knot has finite size**, although it embeds itself: the rope holds it
by value, and it does not hold itself so. -/
theorem knots_have_finite_size : BasesLinked knots ∧
    (resolve knots [0]).2 = .ok (graph knots [0]) ∧
    TransGen (graph knots [0]).Embeds ⟨0, 0⟩ ⟨0, 0⟩ ∧
    (graph knots [0]).HoldsByValue .initial ⟨0, 2⟩ ⟨0, 0⟩ ∧
    ¬ TransGen ((graph knots [0]).HoldsByValue .initial) ⟨0, 0⟩ ⟨0, 0⟩ := by
  have hout : (graph knots [0]).Embeds ⟨0, 0⟩ ⟨0, 1⟩ :=
    ⟨_, _, declares_knot, _, List.mem_singleton.mpr rfl, rfl⟩
  have hback : (graph knots [0]).Embeds ⟨0, 1⟩ ⟨0, 0⟩ :=
    ⟨_, _, declares_loop, _, List.mem_singleton.mpr rfl, rfl⟩
  have hrope : knotsModule.isIndirect ⟨0, 2⟩ "knot" = false := by
    rw [← Bool.not_eq_true, isIndirect_iff basesLinked_knots resolve_knots declares_rope]
    rintro ⟨t, b, ht, htarget, hback⟩
    obtain rfl : t = knotRef "Knot" 0 := congrArg Prod.snd (List.mem_singleton.mp ht)
    obtain rfl : (⟨0, 0⟩ : DeclId) = b := Option.some.inj htarget
    rcases embedded_in_knot hback with h | h <;> cases h
  have hheld : (graph knots [0]).HoldsByValue .initial ⟨0, 2⟩ ⟨0, 0⟩ :=
    holdsByValue_iff.mpr ⟨_, _, _, _, declares_rope, declares_knot, Or.inl rfl, Or.inl rfl,
      _, List.mem_singleton.mpr rfl, rfl, hrope⟩
  exact ⟨basesLinked_knots, resolve_knots, .tail (.single hout) hback, hheld,
    holdsByValue_acyclic basesLinked_knots resolve_knots .initial ⟨0, 0⟩⟩

end Sample

end WireModel
