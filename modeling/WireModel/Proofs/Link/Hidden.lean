import WireModel.Proofs.Link.Bindings
import WireModel.Proofs.Link.Emission

/-!
# Hidden references — where linking breaks off

Validation looks below lists, maps and optionals only, while binding looks
at every node of a type. So a reference without a name that hangs below a
scalar or below another reference passes validation, and binding finds
nothing to bind there. This is the one way for linking to end without an
answer (`resolve_breaks_off_iff`); otherwise it ends with errors or with a
graph, and in a graph every module and every declaration has its place, so
no search for the next one comes back empty.
-/

namespace WireModel

open Linking

namespace TypeExpr

/-- The nodes that validation looks at. -/
def checked : TypeExpr → List TypeExpr
  | missing => []
  | node k width r elem =>
    node k width r elem ::
      if k = .list ∨ k = .map ∨ k = .optional then elem.checked else []

/-- A node that says it is a reference and holds none. -/
def IsUnnamed (t : TypeExpr) : Prop := ∃ width elem, t = node .ref width none elem

variable {t p : TypeExpr}

/-- References without a name are the nodes that say so. -/
theorem none_mem_refs_iff : none ∈ t.refs ↔ ∃ p ∈ t.nodes, p.IsUnnamed := by
  induction t with
  | missing => simp [refs, nodes]
  | node k width r elem ih =>
    rw [nodes, List.exists_mem_cons_iff, ← ih]
    by_cases hk : k = .ref
    · subst hk
      rw [refs, List.mem_cons]
      simp [IsUnnamed, eq_comm]
    · rw [refs_node_of_ne hk]
      simp [IsUnnamed, hk]

/-- **Validation finds every reference without a name that it looks at.** -/
theorem not_isUnnamed_of_checked (h : t.defect? = none) (hp : p ∈ t.checked) : ¬ p.IsUnnamed := by
  induction t with
  | missing => cases hp
  | node k width r elem ih =>
    obtain ⟨-, -, -, hinner, href⟩ := defect?_eq_none_iff.mp h
    rw [checked, List.mem_cons] at hp
    rcases hp with rfl | hp
    · rintro ⟨width', elem', heq⟩
      obtain ⟨rfl, -, rfl, -⟩ := node.inj heq
      obtain ⟨s, hs, -⟩ := href rfl
      cases hs
    · split at hp
      · rename_i hcomposite
        exact ih (hinner hcomposite) hp
      · cases hp

end TypeExpr

/-! ## What binding meets -/

section Asked

variable (w : Workspace) (ids : List Nat)

/-- Somewhere a node says that it is a reference and holds none, where
validation does not look. -/
def HidesUnnamed : Prop :=
  ∃ i m, Given w ids i m ∧ ∃ d ∈ m.decls, ∃ x ∈ d.members,
    ∃ p ∈ x.2.nodes, p.IsUnnamed ∧ p ∉ x.2.checked

end Asked

variable {w : Workspace} {ids : List Nat}

/-- In valid modules, a reference without a name is a hidden one. -/
theorem hidesUnnamed_iff (hvalid : ∀ i m, Given w ids i m → m.errors = []) :
    HidesUnnamed w ids ↔ ¬ NamedRefs w ids := by
  have hsame : ∀ {i m}, Given w ids i m → ∀ {d}, d ∈ m.decls → ∀ {x}, x ∈ d.members →
      (none ∈ x.2.refs ↔ ∃ p ∈ x.2.nodes, p.IsUnnamed ∧ p ∉ x.2.checked) := by
    intro i m hm d hd x hx
    rw [TypeExpr.none_mem_refs_iff]
    refine ⟨?_, fun ⟨p, hp, hun, _⟩ => ⟨p, hp, hun⟩⟩
    rintro ⟨p, hp, hun⟩
    refine ⟨p, hp, hun, fun hc => ?_⟩
    rcases Decl.defect?_of_valid (Module.decl_errors_of_valid (hvalid i m hm) hd) hx with h | ⟨-, h⟩
    · exact TypeExpr.not_isUnnamed_of_checked h hc hun
    · -- a void variant has no nodes
      rw [h] at hp
      cases hp
  constructor
  · rintro ⟨i, m, hm, d, hd, x, hx, hp⟩ hnamed
    exact hnamed i m hm d hd x hx ((hsame hm hd hx).mpr hp)
  · intro h
    unfold NamedRefs at h
    push Not at h
    obtain ⟨i, m, hm, d, hd, x, hx, hnone⟩ := h
    exact ⟨i, m, hm, d, hd, x, hx, (hsame hm hd hx).mp hnone⟩

/-- Linking breaks off if the steps before references are bound find no
error and a reference without a name is left. -/
theorem resolve_unnamed_iff : (resolve w ids).2 = .error .unnamedReference ↔
    Importable w ids ∧ ¬ NamedRefs w ids := by
  rw [importable_iff]
  constructor
  · intro h
    have hends := resolve_endsWith w ids
    rw [h] at hends
    cases hends with
    | unnamed hreg himp hcir hname =>
      refine ⟨⟨hreg, himp, hcir⟩, fun hnamed => ?_⟩
      obtain ⟨i, hi, hun⟩ := hname
      rw [(named_iff hreg).mpr hnamed i hi] at hun
      cases hun
  · rintro ⟨⟨hreg, himp, hcir⟩, hnamed⟩
    rw [resolve, resolveWith_eq, if_neg (by simp [hreg]), if_neg (by simp [himp]),
      if_neg (by simp [hcir]), if_pos]
    rw [← named_iff hreg] at hnamed
    simpa using hnamed

/-- **When linking breaks off.** Linking ends without an answer exactly if
the imports of the modules can be bound and a reference without a name is
hidden from validation. Otherwise it ends with errors, at least one, or
with a graph. A graph has every given module once, and every declaration of
a module has its place in the emission order once. -/
theorem resolve_breaks_off_iff (w : Workspace) (ids : List Nat) :
    ((resolve w ids).2 = .error .unnamedReference ↔
      Importable w ids ∧ HidesUnnamed w ids) ∧
    (∀ es, (resolve w ids).2 = .error (.errors es) → es ≠ []) ∧
    ∀ g, (resolve w ids).2 = .ok g → (g.modules.map (·.id)).Nodup ∧
      (∀ i, i ∈ g.modules.map (·.id) ↔ ∃ m, Given w ids i m) ∧
      ∀ lm ∈ g.modules, lm.order.Perm (g.workspace.declIds lm.id) := by
  refine ⟨?_, fun es hes => ?_, fun g hg => ?_⟩
  · rw [resolve_unnamed_iff]
    exact and_congr_right fun h => (hidesUnnamed_iff h.valid).symm
  · rcases resolve_cases w ids with hp | ⟨-, -, he⟩ | ⟨es', hne, he⟩
    · rw [resolve_of_passes hp] at hes
      cases hes
    · rw [he] at hes
      cases hes
    · rw [he] at hes
      obtain rfl : es' = es := by simpa using hes
      exact hne
  · obtain ⟨hp, rfl⟩ := passes_of_resolve hg
    refine ⟨nodup_ids_modules hp, fun i => ?_, fun lm hlm => ?_⟩
    · rw [List.mem_map]
      exact exists_mem_modules_iff hp
    · rw [(mem_modules_graph_iff.mp hlm).2]
      exact order_perm _ _ _

namespace Sample

/-- A newtype over a string below which a reference without a name hangs. -/
def hollow : Workspace :=
  [{ name := "m", path := "m"
     decls := [{ name := "T"
                 body := .newtype (.node .string 0 none (.node .ref 0 none .missing)) }] }]

/-- **Linking does not always end with an answer.** The module is valid. -/
theorem resolve_hollow : hollow.flatMap Module.errors = [] ∧
    ¬ ((∃ g, (resolve hollow [0]).2 = .ok g) ∨
      ∃ es, (resolve hollow [0]).2 = .error (.errors es)) := by
  have hreg : (register hollow [] [0]).2 = [] := by decide +kernel
  have himp : (bindAllImports hollow (paths hollow [0]) (order hollow [0])).2 = [] := by
    rw [order_eq_inserted]
    decide +kernel
  have hcir := (circles_iff_evaluates hreg).mpr (by decide +kernel)
  have hnamed : ¬ NamedRefs hollow [0] := fun h =>
    h 0 _ ⟨by simp, rfl⟩ _ List.mem_cons_self _ (List.mem_singleton.mpr rfl) (by decide)
  have hrun : (resolve hollow [0]).2 = .error .unnamedReference :=
    resolve_unnamed_iff.mpr ⟨importable_iff.mpr ⟨hreg, himp, hcir⟩, hnamed⟩
  refine ⟨by decide, ?_⟩
  rw [hrun]
  rintro (⟨g, hg⟩ | ⟨es, hes⟩)
  · cases hg
  · cases hes

end Sample

end WireModel
