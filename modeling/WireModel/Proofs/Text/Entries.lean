import Mathlib.Data.List.Nodup
import Mathlib.Data.List.Perm.Basic
import Mathlib.Data.List.Sort
import WireModel.Text.Basic

/-!
# Entries — looking up keys

`Text.lookup?` takes the first entry of a key. Where the keys are
pairwise distinct it finds every entry, and the order of the entries
does not matter to it. Sorting puts entries in the order of their keys,
whatever their order was, and sorting by insertion does the same.
-/

namespace WireModel

namespace Text

variable {β : Type} {k key : Text} {x : β} {es es' : List (Text × β)}

@[simp] theorem lookup?_nil : lookup? key ([] : List (Text × β)) = none := rfl

theorem lookup?_cons_self : lookup? k ((k, x) :: es) = some x := by
  simp [lookup?]

theorem lookup?_cons_of_ne (h : k ≠ key) : lookup? key ((k, x) :: es) = lookup? key es := by
  simp [lookup?, List.find?_cons_of_neg, h]

theorem lookup?_append : lookup? key (es ++ es') = (lookup? key es).or (lookup? key es') := by
  simp [lookup?, List.find?_append, Option.map_or]

/-- What is found is there. -/
theorem mem_of_lookup? (h : lookup? key es = some x) : (key, x) ∈ es := by
  obtain ⟨e, he, rfl⟩ := Option.map_eq_some_iff.mp h
  have hk : e.1 = key := by simpa using List.find?_some he
  have hm : e ∈ es := List.mem_of_find?_eq_some he
  rw [← hk]
  exact hm

/-- What is not found has no entry. -/
theorem lookup?_eq_none_iff : lookup? key es = none ↔ key ∉ es.map (·.1) := by
  rw [lookup?, Option.map_eq_none_iff, List.find?_eq_none]
  constructor
  · intro h hk
    obtain ⟨e, he, rfl⟩ := List.mem_map.mp hk
    exact h e he (by simp)
  · intro h e he hek
    exact h (List.mem_map.mpr ⟨e, he, by simpa using hek⟩)

/-- **Every entry is found**, where no key stands twice. -/
theorem lookup?_eq_some_of_mem (hnd : (es.map (·.1)).Nodup) (h : (key, x) ∈ es) :
    lookup? key es = some x := by
  induction es with
  | nil => simp at h
  | cons e es ih =>
    obtain ⟨k, y⟩ := e
    rw [List.map_cons, List.nodup_cons] at hnd
    rcases List.mem_cons.mp h with h | h
    · cases h
      exact lookup?_cons_self
    · have hne : k ≠ key := by
        rintro rfl
        exact hnd.1 (List.mem_map.mpr ⟨(k, x), h, rfl⟩)
      rw [lookup?_cons_of_ne hne]
      exact ih hnd.2 h

/-- **The order of entries does not matter**, where no key stands twice. -/
theorem lookup?_perm (hnd : (es.map (·.1)).Nodup) (hp : es.Perm es') :
    lookup? key es' = lookup? key es := by
  have hnd' : (es'.map (·.1)).Nodup := (hp.map _).nodup_iff.mp hnd
  cases h : lookup? key es with
  | none =>
    rw [lookup?_eq_none_iff] at h ⊢
    exact fun hk => h ((hp.map _).mem_iff.mpr hk)
  | some x => exact lookup?_eq_some_of_mem hnd' (hp.mem_iff.mp (mem_of_lookup? h))

theorem sortByKey_perm (es : List (Text × β)) : (sortByKey es).Perm es :=
  List.mergeSort_perm es _

/-- Sorting entries by their keys changes no look-up. -/
theorem lookup?_sortByKey (hnd : (es.map (·.1)).Nodup) :
    lookup? key (sortByKey es) = lookup? key es :=
  lookup?_perm hnd (sortByKey_perm es).symm

/-! ## The order of keys -/

theorem le_total (s t : Text) : (le s t || le t s) = true := by
  induction s generalizing t with
  | nil => rfl
  | cons a s ih =>
    cases t with
    | nil => rfl
    | cons b t =>
      have hab : a < b ∨ a = b ∨ b < a := by
        rw [UInt8.lt_iff_toNat_lt, UInt8.lt_iff_toNat_lt, ← UInt8.toNat_inj]
        omega
      rcases hab with h | rfl | h
      · simp [le, h]
      · simpa [le, UInt8.lt_irrefl] using ih t
      · simp [le, h]

theorem le_trans {s t u : Text} (hst : le s t = true) (htu : le t u = true) : le s u = true := by
  induction s generalizing t u with
  | nil => rfl
  | cons a s ih =>
    cases t with
    | nil => cases hst
    | cons b t =>
      cases u with
      | nil => cases htu
      | cons c u =>
        simp only [le, Bool.or_eq_true, Bool.and_eq_true, decide_eq_true_eq, beq_iff_eq] at hst htu ⊢
        rcases hst with hab | ⟨rfl, hst⟩
        · rcases htu with hbc | ⟨rfl, -⟩
          · exact Or.inl (UInt8.lt_trans hab hbc)
          · exact Or.inl hab
        · exact htu.imp id fun ⟨hbc, htu⟩ => ⟨hbc, ih hst htu⟩

theorem le_antisymm {s t : Text} (hst : le s t = true) (hts : le t s = true) : s = t := by
  induction s generalizing t with
  | nil =>
    cases t with
    | nil => rfl
    | cons b t => cases hts
  | cons a s ih =>
    cases t with
    | nil => cases hst
    | cons b t =>
      simp only [le, Bool.or_eq_true, Bool.and_eq_true, decide_eq_true_eq, beq_iff_eq] at hst hts
      rcases hst with hab | ⟨rfl, hst⟩
      · rcases hts with hba | ⟨rfl, -⟩
        · exact absurd (UInt8.lt_trans hab hba) (UInt8.lt_irrefl _)
        · exact absurd hab (UInt8.lt_irrefl _)
      · rcases hts with haa | ⟨-, hts⟩
        · exact absurd haa (UInt8.lt_irrefl _)
        · rw [ih hst hts]

/-- **Sorted entries stand in the order of their keys.** -/
theorem pairwise_sortByKey (es : List (Text × β)) :
    (sortByKey es).Pairwise fun x y => le x.1 y.1 = true := by
  unfold sortByKey
  refine List.pairwise_mergeSort ?_ ?_ es
  · intro a b c hab hbc
    exact le_trans hab hbc
  · intro a b
    exact le_total a.1 b.1

/-- **Entries in the order of their keys are determined by what they are**,
where no key stands twice. -/
theorem eq_of_perm_of_pairwise (hnd : (es.map (·.1)).Nodup) (hp : es.Perm es')
    (hs : es.Pairwise fun x y => le x.1 y.1 = true)
    (hs' : es'.Pairwise fun x y => le x.1 y.1 = true) : es = es' := by
  refine List.Perm.eq_of_pairwise ?_ hs hs' hp
  intro x y hx hy hxy hyx
  have hkey : x.1 = y.1 := le_antisymm hxy hyx
  have hlx : lookup? x.1 es = some x.2 := lookup?_eq_some_of_mem hnd hx
  have hly : lookup? y.1 es = some y.2 := lookup?_eq_some_of_mem hnd (hp.mem_iff.mpr hy)
  rw [hkey, hly] at hlx
  exact Prod.ext hkey (Option.some.inj hlx).symm

/-- **Sorting forgets the order of entries**, where no key stands twice. -/
theorem sortByKey_eq_of_perm (hnd : (es.map (·.1)).Nodup) (hp : es.Perm es') :
    sortByKey es = sortByKey es' :=
  eq_of_perm_of_pairwise (((sortByKey_perm es).map _).nodup_iff.mpr hnd)
    ((sortByKey_perm es).trans (hp.trans (sortByKey_perm es').symm))
    (pairwise_sortByKey es) (pairwise_sortByKey es')

instance : IsTrans (Text × β) fun x y => le x.1 y.1 = true := ⟨fun _ _ _ => le_trans⟩

instance : Std.Total fun x y : Text × β => le x.1 y.1 = true :=
  ⟨fun x y => by simpa using le_total x.1 y.1⟩

/-- **Sorting puts one entry after the other in its place**, where no key
stands twice. -/
theorem sortByKey_eq_insertionSort (hnd : (es.map (·.1)).Nodup) :
    sortByKey es = es.insertionSort fun x y => le x.1 y.1 = true :=
  eq_of_perm_of_pairwise (((sortByKey_perm es).map _).nodup_iff.mpr hnd)
    ((sortByKey_perm es).trans (List.perm_insertionSort _ es).symm)
    (pairwise_sortByKey es) (List.pairwise_insertionSort _ es)

end Text

end WireModel
