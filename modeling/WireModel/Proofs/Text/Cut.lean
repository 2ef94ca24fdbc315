import Mathlib.Data.List.Basic
import WireModel.Text.Basic

/-!
# Cutting texts — where separators stand

`Text.cut?` cuts at the first separator: a text is not cut exactly if it
has none, and the part in front of the cut has none. `Text.cutLast?` cuts
at the last one, and `Text.splitOn` at all of them, which `Text.join`
undoes.
-/

namespace WireModel

namespace Text

variable {sep : UInt8} {t : Text}

theorem cut?_eq_none_iff : cut? sep t = none ↔ sep ∉ t := by
  induction t with
  | nil => simp [cut?]
  | cons b t ih =>
    rw [cut?]
    by_cases hb : b = sep
    · simp [hb]
    · simp [hb, ih, Ne.symm hb]

/-- **A text is cut at its first separator.** -/
theorem cut?_eq_some_iff {l r : Text} : cut? sep t = some (l, r) ↔ t = l ++ sep :: r ∧ sep ∉ l := by
  induction t generalizing l with
  | nil => simp [cut?]
  | cons b t ih =>
    rw [cut?]
    by_cases hb : b = sep
    · subst hb
      cases l with
      | nil => simp [eq_comm]
      | cons c l =>
        simp only [beq_self_eq_true, if_true, List.cons_append, List.cons.injEq, List.mem_cons]
        constructor
        · intro h
          cases h
        · rintro ⟨⟨rfl, -⟩, hc⟩
          exact absurd (Or.inl rfl) hc
    · cases l with
      | nil => simp [hb]
      | cons c l =>
        simp only [beq_iff_eq, hb, if_false, Option.map_eq_some_iff, Prod.exists, Prod.mk.injEq,
          List.cons.injEq, List.cons_append, List.mem_cons, not_or]
        constructor
        · rintro ⟨l', r', h, ⟨rfl, rfl⟩, rfl⟩
          obtain ⟨rfl, hl⟩ := ih.mp h
          exact ⟨⟨rfl, rfl⟩, Ne.symm hb, hl⟩
        · rintro ⟨⟨rfl, h⟩, -, hl⟩
          exact ⟨l, r, ih.mpr ⟨h, hl⟩, ⟨rfl, rfl⟩, rfl⟩

theorem cutLast?_eq_none_iff : cutLast? sep t = none ↔ sep ∉ t := by
  rw [cutLast?, Option.map_eq_none_iff, cut?_eq_none_iff, List.mem_reverse]

/-- **The last cut** is at the last separator. -/
theorem cutLast?_eq_some_iff {l r : Text} :
    cutLast? sep t = some (l, r) ↔ t = l ++ sep :: r ∧ sep ∉ r := by
  simp only [cutLast?, Option.map_eq_some_iff, Prod.exists, Prod.mk.injEq]
  constructor
  · rintro ⟨r', l', h, rfl, rfl⟩
    obtain ⟨heq, hr⟩ := cut?_eq_some_iff.mp h
    refine ⟨?_, by simpa using hr⟩
    rw [← List.reverse_reverse t, heq]
    simp
  · rintro ⟨rfl, hr⟩
    refine ⟨r.reverse, l.reverse, cut?_eq_some_iff.mpr ⟨by simp, by simpa using hr⟩, ?_, ?_⟩ <;>
      exact List.reverse_reverse _

/-- What is left of a text without its end. -/
theorem append_of_stripEnd? {tail stem : Text} (h : stripEnd? tail t = some stem) :
    stem ++ tail = t := by
  rw [stripEnd?] at h
  split at h
  · rename_i hsuffix
    obtain ⟨s, rfl⟩ := List.isSuffixOf_iff_suffix.mp hsuffix
    rw [← Option.some.inj h]
    simp
  · cases h

/-! ## Splitting -/

@[simp] theorem splitOn_nil : splitOn sep [] = [[]] := rfl

/-- A separator ends a part. -/
@[simp] theorem splitOn_cons_self : splitOn sep (sep :: t) = [] :: splitOn sep t := by
  rw [splitOn, if_pos (beq_self_eq_true sep)]

/-- Any other byte belongs to the first part. -/
theorem splitOn_cons_of_ne {b : UInt8} {part : Text} {parts : List Text} (hb : b ≠ sep)
    (h : splitOn sep t = part :: parts) : splitOn sep (b :: t) = (b :: part) :: parts := by
  rw [splitOn, if_neg (by simpa using hb), h]

/-- There is a first part. -/
theorem exists_splitOn_eq_cons (sep : UInt8) (t : Text) :
    ∃ part parts, splitOn sep t = part :: parts := by
  induction t with
  | nil => exact ⟨[], [], rfl⟩
  | cons b t ih =>
    obtain ⟨part, parts, h⟩ := ih
    by_cases hb : b = sep
    · rw [hb]
      exact ⟨[], splitOn sep t, splitOn_cons_self⟩
    · exact ⟨b :: part, parts, splitOn_cons_of_ne hb h⟩

theorem splitOn_ne_nil : splitOn sep t ≠ [] := by
  obtain ⟨part, parts, h⟩ := exists_splitOn_eq_cons sep t
  rw [h]
  exact List.cons_ne_nil part parts

/-- There is a last part. -/
theorem exists_splitOn_eq_concat (sep : UInt8) (t : Text) :
    ∃ parts b, splitOn sep t = parts ++ [b] := by
  rcases List.eq_nil_or_concat (splitOn sep t) with hnil | ⟨parts, b, h⟩
  · exact absurd hnil splitOn_ne_nil
  · exact ⟨parts, b, h.trans List.concat_eq_append⟩

/-- **Separators split a text in two** wherever they stand. -/
theorem splitOn_append (a b : Text) :
    splitOn sep (a ++ sep :: b) = splitOn sep a ++ splitOn sep b := by
  induction a with
  | nil => simp
  | cons c a ih =>
    by_cases hc : c = sep
    · simp [hc, ih]
    · obtain ⟨part, parts, h⟩ := exists_splitOn_eq_cons sep a
      rw [h, List.cons_append] at ih
      rw [List.cons_append, splitOn_cons_of_ne hc ih, splitOn_cons_of_ne hc h, List.cons_append]

theorem splitOn_of_not_mem (h : sep ∉ t) : splitOn sep t = [t] := by
  induction t with
  | nil => rfl
  | cons b t ih =>
    rw [List.mem_cons, not_or] at h
    exact splitOn_cons_of_ne (Ne.symm h.1) (ih h.2)

/-- The parts hold no separator. -/
theorem not_mem_of_mem_splitOn {part : Text} (h : part ∈ splitOn sep t) : sep ∉ part := by
  induction t generalizing part with
  | nil => simp_all
  | cons b t ih =>
    by_cases hb : b = sep
    · rw [hb, splitOn_cons_self] at h
      rcases List.mem_cons.mp h with rfl | h
      · exact List.not_mem_nil
      · exact ih h
    · obtain ⟨first, rest, hsplit⟩ := exists_splitOn_eq_cons sep t
      rw [splitOn_cons_of_ne hb hsplit] at h
      rw [hsplit] at ih
      rcases List.mem_cons.mp h with rfl | h
      · rw [List.mem_cons, not_or]
        exact ⟨Ne.symm hb, ih List.mem_cons_self⟩
      · exact ih (List.mem_cons_of_mem _ h)

/-- What stands in a part stands in the text. -/
theorem mem_of_mem_splitOn {part : Text} (h : part ∈ splitOn sep t) {b : UInt8} (hb : b ∈ part) :
    b ∈ t := by
  induction t generalizing part with
  | nil =>
    obtain rfl := List.mem_singleton.mp h
    exact hb
  | cons c t ih =>
    by_cases hc : c = sep
    · rw [hc, splitOn_cons_self] at h
      rcases List.mem_cons.mp h with rfl | h
      · cases hb
      · exact List.mem_cons_of_mem _ (ih h hb)
    · obtain ⟨first, rest, hsplit⟩ := exists_splitOn_eq_cons sep t
      rw [splitOn_cons_of_ne hc hsplit] at h
      rw [hsplit] at ih
      rcases List.mem_cons.mp h with rfl | h
      · exact (List.mem_cons.mp hb).elim (fun h => h ▸ List.mem_cons_self)
          fun hb => List.mem_cons_of_mem _ (ih List.mem_cons_self hb)
      · exact List.mem_cons_of_mem _ (ih (List.mem_cons_of_mem _ h) hb)

theorem join_cons {x : Text} {xs : List Text} (h : xs ≠ []) :
    join [sep] (x :: xs) = x ++ sep :: join [sep] xs := by
  cases xs with
  | nil => exact absurd rfl h
  | cons y ys => simp [join]

theorem join_concat {x : Text} {xs : List Text} (h : xs ≠ []) :
    join [sep] (xs ++ [x]) = join [sep] xs ++ sep :: x := by
  induction xs with
  | nil => exact absurd rfl h
  | cons y ys ih =>
    rw [List.cons_append, join_cons (by simp)]
    by_cases hys : ys = []
    · simp [hys, join]
    · rw [ih hys, join_cons hys, List.append_assoc, List.cons_append]

/-- **Splitting undoes joining**, where no part holds a separator. -/
theorem splitOn_join {parts : List Text} (hne : parts ≠ []) (h : ∀ x ∈ parts, sep ∉ x) :
    splitOn sep (join [sep] parts) = parts := by
  induction parts with
  | nil => exact absurd rfl hne
  | cons x xs ih =>
    have hx : sep ∉ x := h x List.mem_cons_self
    by_cases hxs : xs = []
    · rw [hxs]
      exact splitOn_of_not_mem hx
    · rw [join_cons hxs, splitOn_append, splitOn_of_not_mem hx,
        ih hxs fun y hy => h y (List.mem_cons_of_mem x hy), List.singleton_append]

/-- **Joining undoes splitting.** -/
theorem join_splitOn : join [sep] (splitOn sep t) = t := by
  induction t with
  | nil => rfl
  | cons b t ih =>
    by_cases hb : b = sep
    · rw [hb, splitOn_cons_self, join_cons splitOn_ne_nil, ih]
      rfl
    · obtain ⟨part, parts, hsplit⟩ := exists_splitOn_eq_cons sep t
      rw [splitOn_cons_of_ne hb hsplit]
      rw [hsplit] at ih
      cases parts with
      | nil => simpa [join] using ih
      | cons y ys => simpa [join] using ih

end Text

end WireModel
