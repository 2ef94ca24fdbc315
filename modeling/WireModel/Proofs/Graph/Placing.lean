import Mathlib.Data.List.Find
import WireModel.Graph.Placing
import WireModel.Proofs.Graph.Schedule

/-!
# Placing — loops make schedules
-/

namespace WireModel

variable {α : Type} [DecidableEq α] {needs : α → List α}

/-! ## What a schedule places next -/

/-- **A schedule places the first thing whose needs are placed**, of those that
are not placed yet. -/
theorem getElem?_schedule {placed todo : List α} {k : Nat} {x : α}
    (hx : (schedule needs placed todo)[k]? = some x) :
    (∀ y ∈ needs x, y ∈ placed ∨ y ∈ (schedule needs placed todo).take k) ∧
      ∀ z ∈ todo, z ∉ (schedule needs placed todo).take k →
        (∀ y ∈ needs z, y ∈ placed ∨ y ∈ (schedule needs placed todo).take k) →
        x = z ∨ [x, z].Sublist todo := by
  fun_induction schedule needs placed todo generalizing k with
  | case1 placed todo hnone => simp at hx
  | case2 placed todo w hsome ih =>
    have hready : ∀ y ∈ needs w, y ∈ placed := by
      have hall := List.find?_some hsome
      simpa using hall
    cases k with
    | zero =>
      obtain rfl : w = x := by simpa using hx
      simp only [List.take_zero, List.not_mem_nil, or_false, not_false_eq_true, true_imp_iff]
      refine ⟨hready, fun z hz hzready => ?_⟩
      -- what stands before the first one that can be placed cannot be placed
      obtain ⟨-, as, bs, rfl, has⟩ := List.find?_eq_some_iff_append.mp hsome
      have hzas : z ∉ as := by
        intro hzas
        have hnot := has z hzas
        rw [List.all_eq_true.mpr fun y hy => List.contains_iff_mem.mpr (hzready y hy)] at hnot
        cases hnot
      rcases List.mem_append.mp hz with hz | hz
      · exact absurd hz hzas
      · rcases List.mem_cons.mp hz with rfl | hz
        · exact Or.inl rfl
        · refine Or.inr (List.Sublist.trans ?_ (List.sublist_append_right as _))
          exact List.Sublist.cons_cons w (List.singleton_sublist.mpr hz)
    | succ k =>
      rw [List.getElem?_cons_succ] at hx
      obtain ⟨hneeds, hfirst⟩ := ih hx
      have hor : ∀ y, (y ∈ w :: placed ∨ y ∈ (schedule needs (w :: placed) (todo.erase w)).take k) ↔
          (y ∈ placed ∨ y ∈ w :: (schedule needs (w :: placed) (todo.erase w)).take k) := by
        intro y
        simp only [List.mem_cons]
        tauto
      rw [List.take_succ_cons]
      refine ⟨fun y hy => (hor y).mp (hneeds y hy), fun z hz hznew hzready => ?_⟩
      rw [List.mem_cons, not_or] at hznew
      have hzw : z ∈ todo.erase w := (List.mem_erase_of_ne hznew.1).mpr hz
      refine (hfirst z hzw hznew.2 fun y hy => (hor y).mpr (hzready y hy)).imp_right ?_
      exact fun hsub => hsub.trans List.erase_sublist

/-! ## A loop under way -/

/-- **Some of the listed things are placed**, and the schedule of the list has
come as far: `todo` is what is left, in the order of the list. -/
structure Underway (listed placed before todo : List α) : Prop where
  left : todo = listed.filter fun x => !placed.contains x
  same : ∀ x, x ∈ before ↔ x ∈ placed
  count : placed.length + todo.length = listed.length

theorem Underway.start (listed : List α) : Underway listed [] [] listed where
  left := by simp
  same := fun _ => Iff.rfl
  count := Nat.zero_add _

variable {listed placed before todo : List α}

/-- The next one is placed. -/
theorem Underway.place (u : Underway listed placed before todo) (hnd : listed.Nodup) {x : α}
    (hx : x ∈ todo) : Underway listed (placed ++ [x]) (x :: before) (todo.erase x) where
  left := by
    rw [u.left, (hnd.filter _).erase_eq_filter, List.filter_filter]
    refine List.filter_congr fun y _ => ?_
    rw [Bool.eq_iff_iff]
    simp [and_comm]
  same := fun y => by
    rw [List.mem_cons, List.mem_append, List.mem_singleton, u.same, or_comm]
  count := by
    have hcount := u.count
    have hpos := List.length_pos_of_mem hx
    rw [List.length_append, List.length_singleton, List.length_erase_of_mem hx]
    omega

theorem Underway.contains_eq (u : Underway listed placed before todo) :
    placed.contains = before.contains := by
  funext y
  rw [Bool.eq_iff_iff, List.contains_iff_mem, List.contains_iff_mem, u.same]

/-! ## The first of sorted things -/

/-- The first thing that can be placed is what the schedule places next. -/
theorem Underway.find?_canPlace (u : Underway listed placed before todo) :
    listed.find? (canPlace needs placed) =
      todo.find? fun x => (needs x).all before.contains := by
  rw [u.left, List.find?_filter]
  refine List.find?_congr fun y _ => ?_
  rw [canPlace, u.contains_eq, Bool.decide_and, Bool.decide_eq_true, Bool.decide_eq_true]

theorem Underway.placesAll (u : Underway listed placed before todo) (hnd : listed.Nodup)
    (hall : (schedule needs before todo).length = todo.length) :
    PlacesAll needs listed placed (placed ++ schedule needs before todo) := by
  have hcount := u.count
  fun_induction schedule needs before todo generalizing placed with
  | case1 before todo hnone =>
    have hdone : todo.length = 0 := hall.symm
    rw [List.append_nil]
    exact .stop (by omega)
  | case2 before todo x hsome ih =>
    have hx : x ∈ todo := List.mem_of_find?_eq_some hsome
    have hpos := List.length_pos_of_mem hx
    have hpass : placeFirst needs listed placed = placed ++ [x] := by
      rw [placeFirst, u.find?_canPlace, hsome]
    have hleft := List.length_erase_of_mem hx
    have hnext : (schedule needs (x :: before) (todo.erase x)).length = (todo.erase x).length := by
      rw [List.length_cons] at hall
      omega
    have unext := u.place hnd hx
    have hrest := ih unext hnext unext.count
    rw [List.append_assoc, List.singleton_append, ← hpass] at hrest
    exact .pass (by omega) hrest

/-- **The loop over sorted things ends**, with the schedule of them, where that
places all of them. -/
theorem placesAll_schedule (hnd : listed.Nodup)
    (hall : (schedule needs [] listed).length = listed.length) :
    PlacesAll needs listed [] (schedule needs [] listed) :=
  (Underway.start listed).placesAll hnd hall

/-- It ends with one order at most. -/
theorem PlacesAll.unique {order order' : List α} (h : PlacesAll needs listed placed order)
    (h' : PlacesAll needs listed placed order') : order = order' := by
  induction h with
  | stop hstop =>
    cases h' with
    | stop _ => rfl
    | pass hpass _ => exact absurd hpass hstop
  | pass hpass _ ih =>
    cases h' with
    | stop hstop => exact absurd hpass hstop
    | pass _ rest => exact ih rest

/-! ## The one with the smallest rank -/

section Ranked

variable {rank : α → Nat} {all : List α}

/-- A pass looks at one thing after the other. -/
theorem leastReady?_concat (all placed : List α) (z : α) :
    leastReady? rank needs (all ++ [z]) placed =
      if canPlace needs placed z then
        match leastReady? rank needs all placed with
        | some y => if rank z < rank y then some z else some y
        | none => some z
      else leastReady? rank needs all placed := by
  rw [leastReady?, List.foldl_append, List.foldl_cons, List.foldl_nil, ← leastReady?]
  cases leastReady? rank needs all placed <;> rfl

/-- **A pass finds what can be placed** and has the smallest rank, or there is
nothing to find. -/
theorem leastReady?_spec (rank : α → Nat) (needs : α → List α) (all placed : List α) :
    match leastReady? rank needs all placed with
    | some x => x ∈ all ∧ canPlace needs placed x = true ∧
        ∀ y ∈ all, canPlace needs placed y = true → rank x ≤ rank y
    | none => ∀ y ∈ all, ¬ canPlace needs placed y = true := by
  induction all using List.reverseRecOn with
  | nil => simp [leastReady?]
  | append_singleton all z ih =>
    rw [leastReady?_concat]
    by_cases hz : canPlace needs placed z = true
    · rw [if_pos hz]
      cases hbest : leastReady? rank needs all placed with
      | none =>
        rw [hbest] at ih
        refine ⟨List.mem_concat_self, hz, List.forall_mem_append.mpr ⟨fun y hy hcan => ?_, ?_⟩⟩
        · exact absurd hcan (ih y hy)
        · exact List.forall_mem_singleton.mpr fun _ => Nat.le_refl _
      | some b =>
        rw [hbest] at ih
        obtain ⟨hb, hbcan, hmin⟩ := ih
        dsimp only
        by_cases hlt : rank z < rank b
        · rw [if_pos hlt]
          refine ⟨List.mem_concat_self, hz, List.forall_mem_append.mpr ⟨fun y hy hcan => ?_, ?_⟩⟩
          · exact Nat.le_trans (Nat.le_of_lt hlt) (hmin y hy hcan)
          · exact List.forall_mem_singleton.mpr fun _ => Nat.le_refl _
        · rw [if_neg hlt]
          refine ⟨List.mem_append_left _ hb, hbcan, List.forall_mem_append.mpr ⟨hmin, ?_⟩⟩
          exact List.forall_mem_singleton.mpr fun _ => Nat.le_of_not_lt hlt
    · rw [if_neg hz]
      cases hbest : leastReady? rank needs all placed with
      | none =>
        rw [hbest] at ih
        exact List.forall_mem_append.mpr ⟨ih, List.forall_mem_singleton.mpr hz⟩
      | some b =>
        rw [hbest] at ih
        obtain ⟨hb, hbcan, hmin⟩ := ih
        refine ⟨List.mem_append_left _ hb, hbcan, List.forall_mem_append.mpr ⟨hmin, ?_⟩⟩
        exact List.forall_mem_singleton.mpr fun hcan => absurd hcan hz

/-- **Of things that are listed by their ranks, a pass finds the first** that
is left and can be placed. -/
theorem Underway.leastReady?_eq (u : Underway listed placed before todo)
    (hmem : ∀ x, x ∈ all ↔ x ∈ listed) (hrank : listed.Pairwise fun x y => rank x < rank y) :
    leastReady? rank needs all placed =
      todo.find? fun x => (needs x).all before.contains := by
  have hspec := leastReady?_spec rank needs all placed
  rw [← u.find?_canPlace]
  cases hleast : leastReady? rank needs all placed with
  | none =>
    rw [hleast] at hspec
    refine (List.find?_eq_none.mpr fun x hx hcan => ?_).symm
    exact hspec x ((hmem x).mpr hx) hcan
  | some x =>
    rw [hleast] at hspec
    obtain ⟨hx, hcan, hmin⟩ := hspec
    obtain ⟨as, bs, rfl⟩ := List.append_of_mem ((hmem x).mp hx)
    rw [eq_comm, List.find?_eq_some_iff_append]
    refine ⟨hcan, as, bs, rfl, fun y hy => ?_⟩
    -- one that is listed before it has a smaller rank, and would have been found
    have hlt : rank y < rank x := (List.pairwise_append.mp hrank).2.2 y hy x List.mem_cons_self
    cases hycan : canPlace needs placed y with
    | false => rfl
    | true =>
      have := hmin y ((hmem y).mpr (List.mem_append_left _ hy)) hycan
      omega

theorem foldlM_placing_eq (u : Underway listed placed before todo) (hnd : listed.Nodup)
    (hmem : ∀ x, x ∈ all ↔ x ∈ listed) (hrank : listed.Pairwise fun x y => rank x < rank y)
    (hall : (schedule needs before todo).length = todo.length) {β : Type} {passes : List β}
    (hpasses : passes.length = todo.length) :
    passes.foldlM (fun placed _ => (leastReady? rank needs all placed).map fun x => placed ++ [x])
      placed = some (placed ++ schedule needs before todo) := by
  fun_induction schedule needs before todo generalizing placed passes with
  | case1 before todo hnone =>
    have hdone : passes.length = 0 := hpasses.trans hall.symm
    rw [List.length_eq_zero_iff.mp hdone, List.append_nil]
    rfl
  | case2 before todo x hsome ih =>
    have hx : x ∈ todo := List.mem_of_find?_eq_some hsome
    have hleft := List.length_erase_of_mem hx
    have hnext : (schedule needs (x :: before) (todo.erase x)).length = (todo.erase x).length := by
      rw [List.length_cons] at hall
      omega
    cases passes with
    | nil =>
      have hpos := List.length_pos_of_mem hx
      rw [List.length_nil] at hpasses
      omega
    | cons p passes =>
      have hrest : passes.length = (todo.erase x).length := by
        rw [List.length_cons] at hpasses
        omega
      rw [List.foldlM_cons, u.leastReady?_eq hmem hrank, hsome]
      refine (ih (u.place hnd hx) hnext hrest).trans ?_
      rw [List.append_assoc, List.singleton_append]

/-- **A pass for each thing makes the schedule of them**, where they are
scheduled by their ranks and that places all of them: none of the passes finds
nothing to place. -/
theorem placeEach?_eq (hperm : listed.Perm all) (hnd : listed.Nodup)
    (hrank : listed.Pairwise fun x y => rank x < rank y)
    (hall : (schedule needs [] listed).length = listed.length) :
    placeEach? rank needs all = some (schedule needs [] listed) :=
  foldlM_placing_eq (Underway.start listed) hnd (fun _ => hperm.mem_iff.symm) hrank hall
    hperm.length_eq.symm

end Ranked

end WireModel
