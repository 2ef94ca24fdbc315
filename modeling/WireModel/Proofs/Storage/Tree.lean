import Mathlib.Data.List.Basic
import WireModel.Storage.Tree

/-!
# File trees — one place changes at a time

A tree is read place by place. Putting or erasing an entry changes what is
read at its own place and nowhere else (`entry?_put`, `entry?_erase`),
whether or not the tree lists each place once. The root is always a
directory: nothing is put there and nothing is erased there.
-/

namespace WireModel

/-- The places on the way to a place are its parts from the root, without
the root. -/
theorem Place.mem_steps_iff {p q : Place} : q ∈ p.steps ↔ q ≠ [] ∧ q <+: p := by
  simp only [steps, List.mem_map, List.mem_range]
  constructor
  · rintro ⟨i, hi, rfl⟩
    refine ⟨?_, List.take_prefix (i + 1) p⟩
    intro h
    have hlen := congrArg List.length h
    rw [List.length_take, List.length_nil] at hlen
    omega
  · rintro ⟨hne, hpre⟩
    have hpos := List.length_pos_of_ne_nil hne
    have hle := hpre.length_le
    refine ⟨q.length - 1, by omega, ?_⟩
    rw [Nat.sub_add_cancel hpos]
    exact (List.prefix_iff_eq_take.mp hpre).symm

namespace FileTree

variable {t : FileTree} {p q : Place} {e : Entry}

@[simp] theorem entry?_root : t.entry? [] = some .dir := rfl

theorem entry?_of_ne (h : p ≠ []) :
    t.entry? p = (t.entries.find? (·.1 == p)).map (·.2) := by
  unfold entry?
  rw [if_neg (by simpa using h)]

/-- Nothing stands at a place that is not listed. -/
theorem entry?_eq_none_iff : t.entry? p = none ↔ p ≠ [] ∧ p ∉ t.entries.map (·.1) := by
  by_cases hp : p = []
  · simp [hp]
  · rw [entry?_of_ne hp, Option.map_eq_none_iff, List.find?_eq_none]
    simp only [beq_iff_eq, List.mem_map, ne_eq, hp, not_false_eq_true, true_and]
    constructor
    · rintro h ⟨x, hx, hxp⟩
      exact h x hx hxp
    · intro h x hx hxp
      exact h ⟨x, hx, hxp⟩

theorem isDir_eq_false_iff : t.isDir p = false ↔ t.entry? p ≠ some .dir := by
  simp [isDir]

/-- Replacing what a list says of `p` leaves what it says of other places. -/
theorem find?_map_set {es : List (Place × Entry)} (h : q ≠ p) :
    (es.map fun x => if x.1 == p then (p, e) else x).find? (·.1 == q) =
      es.find? (·.1 == q) := by
  induction es with
  | nil => rfl
  | cons x es ih =>
    by_cases hx : x.1 = p
    · have hpq : (p == q) = false := beq_eq_false_iff_ne.mpr (Ne.symm h)
      have hxq : (x.1 == q) = false := hx ▸ hpq
      rw [List.map_cons, if_pos (by simpa using hx), List.find?_cons, hpq, List.find?_cons, hxq]
      exact ih
    · rw [List.map_cons, if_neg (by simpa using hx), List.find?_cons, List.find?_cons, ih]

theorem find?_map_set_self {es : List (Place × Entry)} (h : p ∈ es.map (·.1)) :
    (es.map fun x => if x.1 == p then (p, e) else x).find? (·.1 == p) = some (p, e) := by
  induction es with
  | nil => cases h
  | cons x es ih =>
    by_cases hx : x.1 = p
    · simp [hx]
    · have hrest : p ∈ es.map (·.1) := by
        rw [List.map_cons, List.mem_cons] at h
        exact h.resolve_left (Ne.symm hx)
      have hne : (x.1 == p) = false := beq_eq_false_iff_ne.mpr hx
      rw [List.map_cons, if_neg (by simpa using hx), List.find?_cons, hne]
      exact ih hrest

/-- **Putting an entry** changes its place and no other. -/
theorem entry?_put (hp : p ≠ []) :
    entry? (t.put p e) q = if q = p then some e else t.entry? q := by
  by_cases hq : q = []
  · subst hq
    rw [if_neg (Ne.symm hp)]
    rfl
  rw [put, if_neg (by simpa using hp), entry?_of_ne hq, entry?_of_ne hq]
  by_cases hmem : p ∈ t.entries.map (·.1)
  · have hany : t.entries.any (·.1 == p) = true := by
      simpa [List.any_eq_true] using hmem
    rw [if_pos hany]
    by_cases hqp : q = p
    · rw [hqp, find?_map_set_self hmem, if_pos rfl]
      rfl
    · rw [find?_map_set hqp, if_neg hqp]
  · have hany : ¬t.entries.any (·.1 == p) = true := by
      simpa [List.any_eq_true] using hmem
    rw [if_neg hany, List.find?_append]
    by_cases hqp : q = p
    · have hnone : t.entries.find? (·.1 == p) = none := by
        rw [← Option.map_eq_none_iff, ← entry?_of_ne hp, entry?_eq_none_iff]
        exact ⟨hp, hmem⟩
      simp [hqp, hnone]
    · simp [hqp, Ne.symm hqp]

/-- **Erasing a place** leaves nothing there and changes no other. -/
theorem entry?_erase (hp : p ≠ []) :
    entry? (t.erase p) q = if q = p then none else t.entry? q := by
  by_cases hq : q = []
  · subst hq
    rw [if_neg (Ne.symm hp)]
    rfl
  rw [entry?_of_ne hq, entry?_of_ne hq, erase, List.find?_filter]
  by_cases hqp : q = p
  · simp [hqp]
  · rw [if_neg hqp]
    congr 2
    funext x
    by_cases hx : x.1 = q
    · simp [hx, hqp]
    · simp [hx]

/-! ## A place that is not listed -/

section Unlisted

variable (h : p ∉ t.entries.map (·.1))

include h in
theorem put_of_not_mem (hp : p ≠ []) : t.put p e = ⟨t.entries ++ [(p, e)]⟩ := by
  have hany : ¬t.entries.any (·.1 == p) = true := by simpa [List.any_eq_true] using h
  rw [put, if_neg (by simpa using hp), if_neg hany]

include h in
theorem filter_ne_of_not_mem : t.entries.filter (·.1 != p) = t.entries := by
  refine List.filter_eq_self.mpr fun x hx => ?_
  have hne : x.1 ≠ p := fun heq => h (List.mem_map.mpr ⟨x, hx, heq⟩)
  simpa using hne

include h in
/-- **Of two entries put at a place** the second one stands there. -/
theorem put_put_of_not_mem {e' : Entry} (hp : p ≠ []) : (t.put p e).put p e' = t.put p e' := by
  have hsame : (t.entries.map fun x => if x.1 == p then (p, e') else x) = t.entries := by
    refine (List.map_congr_left fun x hx => if_neg ?_).trans (List.map_id' _)
    have hne : x.1 ≠ p := fun heq => h (List.mem_map.mpr ⟨x, hx, heq⟩)
    simpa using hne
  rw [put_of_not_mem h hp, put_of_not_mem h hp, put, if_neg (by simpa using hp),
    if_pos (by simp), List.map_append, hsame]
  simp

include h in
/-- **Erasing what was put** gives the tree back. -/
theorem erase_put_of_not_mem (hp : p ≠ []) : (t.put p e).erase p = t := by
  rw [put_of_not_mem h hp, erase, List.filter_append, filter_ne_of_not_mem h]
  simp

end Unlisted

end FileTree

end WireModel
