import WireModel.Proofs.Graph.Component
import WireModel.Proofs.Graph.Schedule
import WireModel.Proofs.Link.Steps

/-!
# Emission — every declaration has its place

The declarations of a module are emitted group by group, where a group is
a component of the references inside the module. Groups cannot wait for
each other in a circle, because then they would be one group
(`needs_acyclic`), so the schedule of the groups places all of them and
the emission order is an order of all declarations (`order_perm`).
-/

namespace WireModel

open Relation

namespace Workspace

variable (w : Workspace) (m : Nat)

/-- The groups of declarations that a group refers to. -/
def groupNeeds (c : List DeclId) : List (List DeclId) :=
  ((c.flatMap w.localRefs).filterMap fun d =>
    (w.refGraph m).components.find? (·.contains d)).filter (· != c)

/-- The groups of a module, by the places of their first members. -/
def ranked : List (List DeclId) :=
  (w.declIds m).filterMap fun d => (w.refGraph m).components.find? (·.head? == some d)

theorem orderComponents_eq : orderComponents w m (w.refGraph m).components =
    schedule (w.groupNeeds m) [] (w.ranked m) := rfl

variable {w m} {c c' : List DeclId}

/-- A group that is needed is one of the module, and a reference leads
there. -/
theorem mem_groupNeeds (h : c' ∈ w.groupNeeds m c) : c' ∈ (w.refGraph m).components ∧ c' ≠ c ∧
    ∃ a ∈ c, ∃ b ∈ c', (w.refGraph m).Step a b := by
  obtain ⟨h, hne⟩ := List.mem_filter.mp h
  obtain ⟨b, hb, hfind⟩ := List.mem_filterMap.mp h
  obtain ⟨a, ha, hab⟩ := List.mem_flatMap.mp hb
  have hc' := List.mem_of_find?_eq_some hfind
  have hmem : b ∈ c' := by simpa using List.find?_some hfind
  obtain ⟨r, -, -, hiff⟩ := Digraph.exists_of_mem_components hc'
  exact ⟨hc', by simpa using hne, a, ha, b, hmem, hab, ((hiff b).mp hmem).1⟩

/-- Members of groups of which one needs the other, through others, reach
each other so. -/
theorem transGen_step_of_needs (hc : c ∈ (w.refGraph m).components)
    (h : TransGen (fun a b => b ∈ w.groupNeeds m a) c c') :
    c' ∈ (w.refGraph m).components ∧
      ∀ a ∈ c, ∀ b ∈ c', TransGen (w.refGraph m).Step a b := by
  -- inside a group everything reaches everything
  have hinside : ∀ {c}, c ∈ (w.refGraph m).components → ∀ a ∈ c, ∀ b ∈ c,
      ReflTransGen (w.refGraph m).Step a b := by
    intro c hc a ha b hb
    obtain ⟨r, -, -, hiff⟩ := Digraph.exists_of_mem_components hc
    rcases ((hiff a).mp ha).2.symm.trans ((hiff b).mp hb).2 with rfl | ⟨hab, -⟩
    · exact .refl
    · exact hab.to_reflTransGen
  have hstep : ∀ {c c'}, c ∈ (w.refGraph m).components → c' ∈ w.groupNeeds m c →
      ∀ a ∈ c, ∀ b ∈ c', TransGen (w.refGraph m).Step a b := by
    intro c c' hc h a ha b hb
    obtain ⟨hc', -, x, hx, y, hy, hxy⟩ := mem_groupNeeds h
    exact (TransGen.tail' (hinside hc a ha x hx) hxy).trans_left (hinside hc' y hy b hb)
  induction h with
  | single h => exact ⟨(mem_groupNeeds h).1, hstep hc h⟩
  | tail _ h ih =>
    obtain ⟨hmid, hreach⟩ := ih
    refine ⟨(mem_groupNeeds h).1, fun a ha b hb => ?_⟩
    obtain ⟨-, -, x, hx, -⟩ := mem_groupNeeds h
    exact (hreach a ha x hx).trans (hstep hmid h x hx b hb)

/-- **Groups do not wait for each other in circles.** -/
theorem needs_acyclic (hc : c ∈ (w.refGraph m).components) :
    ¬ TransGen (fun a b => b ∈ w.groupNeeds m a) c c := by
  intro h
  obtain ⟨c₁, h₁, hback⟩ := TransGen.head'_iff.mp h
  obtain ⟨hc₁, hne, a, ha, b, hb, hab⟩ := mem_groupNeeds h₁
  rcases reflTransGen_iff_eq_or_transGen.mp hback with heq | hback
  · exact hne heq.symm
  · have hba := (transGen_step_of_needs hc₁ hback).2 b hb a ha
    exact hne (Digraph.eq_of_connected hc₁ hc hb ha (Or.inr ⟨hba, .single hab⟩))

/-- Every group is ranked, once. -/
theorem mem_ranked_iff : c ∈ w.ranked m ↔ c ∈ (w.refGraph m).components := by
  constructor
  · intro h
    obtain ⟨d, -, hfind⟩ := List.mem_filterMap.mp h
    exact List.mem_of_find?_eq_some hfind
  · intro hc
    obtain ⟨r, hr, -, hiff⟩ := Digraph.exists_of_mem_components hc
    have hrc : r ∈ c := (hiff r).mpr ⟨hr, Or.inl rfl⟩
    cases c with
    | nil => cases hrc
    | cons d ds =>
      refine List.mem_filterMap.mpr ⟨d, ((hiff d).mp List.mem_cons_self).1, ?_⟩
      cases hfind : (w.refGraph m).components.find? (·.head? == some d) with
      | none =>
        have hnone := List.find?_eq_none.mp hfind _ hc
        simp at hnone
      | some c' =>
        have hhead : c'.head? = some d := by simpa using List.find?_some hfind
        rw [Digraph.eq_of_connected (List.mem_of_find?_eq_some hfind) hc
          (List.mem_of_head? hhead) List.mem_cons_self (Or.inl rfl)]

theorem nodup_ranked : (w.ranked m).Nodup := by
  refine nodup_declIds.filterMap fun d d' c hd hd' => ?_
  have hhead : c.head? = some d := by simpa using List.find?_some hd
  have hhead' : c.head? = some d' := by simpa using List.find?_some hd'
  exact Option.some.inj (hhead.symm.trans hhead')

theorem orderComponents_perm :
    (orderComponents w m (w.refGraph m).components).Perm (w.ranked m) := by
  rw [orderComponents_eq]
  refine schedule_perm (fun c _ c' hc' => Or.inr ?_) fun c hc => needs_acyclic (mem_ranked_iff.mp hc)
  exact mem_ranked_iff.mpr (mem_groupNeeds hc').1

end Workspace

open Workspace in
/-- **The emission order is an order of all declarations of a module.** -/
theorem order_perm (w : Workspace) (m : Nat) (deps : List Nat) :
    (analyze w m deps).order.Perm (w.declIds m) := by
  have hperm := orderComponents_perm (w := w) (m := m)
  have hcomp : ∀ {c}, c ∈ orderComponents w m (w.refGraph m).components ↔
      c ∈ (w.refGraph m).components := fun {c} => hperm.mem_iff.trans mem_ranked_iff
  refine (List.perm_ext_iff_of_nodup ?_ nodup_declIds).mpr fun d => ?_
  · refine List.nodup_flatten.mpr ⟨fun c hc => ?_, ?_⟩
    · obtain ⟨r, -, rfl, -⟩ := Digraph.exists_of_mem_components (hcomp.mp hc)
      exact nodup_declIds.filter _
    · refine (hperm.nodup_iff.mpr nodup_ranked).pairwise_of_forall_ne fun c hc c' hc' hne => ?_
      intro d hd hd'
      exact hne (Digraph.eq_of_connected (hcomp.mp hc) (hcomp.mp hc') hd hd' (Or.inl rfl))
  · simp only [analyze, List.mem_flatten]
    constructor
    · rintro ⟨c, hc, hd⟩
      obtain ⟨r, -, -, hiff⟩ := Digraph.exists_of_mem_components (hcomp.mp hc)
      exact ((hiff d).mp hd).1
    · intro hd
      obtain ⟨c, hc, hdc⟩ := Digraph.exists_mem_components (g := w.refGraph m) hd
      exact ⟨c, hcomp.mpr hc, hdc⟩

end WireModel
