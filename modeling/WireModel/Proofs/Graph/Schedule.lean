import Mathlib.Logic.Relation
import Mathlib.Data.List.Perm.Basic
import Mathlib.Data.Set.Finite.Basic
import Mathlib.Order.WellFounded
import WireModel.Graph.Schedule

/-!
# Schedules — where nothing waits for itself, everything is placed

A schedule stops early only when every thing that is left waits for
another one that is left. Without a circle of needs that cannot happen,
so a schedule is then an order of all that was to be placed, and in any
case one in which needs come first.
-/

namespace WireModel

open Relation

variable {α : Type}

/-- **A finite list without circles has a last member**: one that points
to no other member. -/
theorem exists_last_of_acyclic {R : α → α → Prop} {l : List α} (hne : l ≠ [])
    (hac : ∀ x ∈ l, ¬ TransGen R x x) : ∃ x ∈ l, ∀ y ∈ l, ¬ R x y := by
  let below : {x // x ∈ l} → {x // x ∈ l} → Prop := fun a b => TransGen R b.1 a.1
  have : IsTrans {x // x ∈ l} below := ⟨fun _ _ _ hab hbc => TransGen.trans hbc hab⟩
  have : Std.Irrefl below := ⟨fun a h => hac a.1 a.2 h⟩
  have : Finite {x // x ∈ l} := Set.Finite.to_subtype (List.finite_toSet l)
  have hwf : WellFounded below := Finite.wellFounded_of_trans_of_irrefl below
  obtain ⟨a, ha⟩ := List.exists_mem_of_ne_nil l hne
  obtain ⟨m, -, hm⟩ := hwf.has_min Set.univ ⟨⟨a, ha⟩, trivial⟩
  exact ⟨m.1, m.2, fun y hy hmy => hm ⟨y, hy⟩ trivial (TransGen.single hmy)⟩

variable [DecidableEq α]

/-- **Everything is placed**, if nothing needs itself through others and
every need is placed already or to be placed. -/
theorem schedule_perm {needs : α → List α} {placed todo : List α}
    (hin : ∀ x ∈ todo, ∀ y ∈ needs x, y ∈ placed ∨ y ∈ todo)
    (hac : ∀ x ∈ todo, ¬ TransGen (fun a b => b ∈ needs a) x x) :
    (schedule needs placed todo).Perm todo := by
  fun_induction schedule needs placed todo with
  | case1 placed todo hnone =>
    by_cases hne : todo = []
    · rw [hne]
    · -- nothing could be placed, and yet something needs nothing that is left
      obtain ⟨x, hx, hlast⟩ := exists_last_of_acyclic hne hac
      refine absurd ?_ (List.find?_eq_none.mp hnone x hx)
      refine List.all_eq_true.mpr fun y hy => List.contains_iff_mem.mpr ?_
      exact (hin x hx y hy).resolve_right fun ht => hlast y ht hy
  | case2 placed todo x hsome ih =>
    have hx : x ∈ todo := List.mem_of_find?_eq_some hsome
    refine List.Perm.trans (List.Perm.cons x (ih ?_ ?_)) (List.perm_cons_erase hx).symm
    · intro z hz y hy
      rcases hin z (List.mem_of_mem_erase hz) y hy with h | h
      · exact Or.inl (List.mem_cons_of_mem x h)
      · by_cases hyx : y = x
        · exact Or.inl (by simp [hyx])
        · exact Or.inr ((List.mem_erase_of_ne hyx).mpr h)
    · exact fun z hz => hac z (List.mem_of_mem_erase hz)

/-- **Everything comes after its needs**: what a scheduled thing needs was
placed already, or is scheduled before it. -/
theorem sublist_schedule {needs : α → List α} {placed todo : List α} {x y : α}
    (hx : x ∈ schedule needs placed todo) (hy : y ∈ needs x) (hnew : y ∉ placed) :
    [y, x].Sublist (schedule needs placed todo) := by
  fun_induction schedule needs placed todo with
  | case1 placed todo hnone => cases hx
  | case2 placed todo z hsome ih =>
    have hready : (needs z).all placed.contains = true :=
      List.find?_some (p := fun x => (needs x).all placed.contains) hsome
    rcases List.mem_cons.mp hx with rfl | hx
    · -- the needs of the first thing were placed already
      exact absurd (List.contains_iff_mem.mp (List.all_eq_true.mp hready y hy)) hnew
    · by_cases hyz : y = z
      · rw [hyz]
        exact List.Sublist.cons_cons z (List.singleton_sublist.mpr hx)
      · have hnew' : y ∉ z :: placed := by simp [hyz, hnew]
        exact List.Sublist.cons z (ih hx hnew')

end WireModel
