import WireModel.Decode.Reader

/-!
# Readings — one after the other

A reading gives an answer or none, and an answer is a result or an
error. What two readings one after the other answer is said by what each
answers: a result comes from results (`Reading.andThen_eq_ok_iff`), the
end of a reading without a result from the step that had none
(`Reading.stop`), and a reading that answers no less at each step answers
no less in the end (`Reading.Le`).
-/

namespace WireModel

namespace Reading

variable {α β : Type} {a b c : Reading α}

/-! ## Results -/

@[simp] theorem lift_ok_andThen (x : α) (f : α → Reading β) : (lift (.ok x)).andThen f = f x := rfl

/-- **A result of two readings** comes from a result of the first. -/
theorem andThen_eq_ok_iff {f : α → Reading β} {y : β} :
    a.andThen f = some (.ok y) ↔ ∃ x, a = some (.ok x) ∧ f x = some (.ok y) := by
  cases a with
  | none => simp [andThen]
  | some r =>
    cases r with
    | error e => simp [andThen]
    | ok x => simp [andThen]

theorem map_eq_ok_iff {f : α → β} {y : β} :
    a.map f = some (.ok y) ↔ ∃ x, a = some (.ok x) ∧ f x = y := by
  simp [map, andThen_eq_ok_iff]

/-- A result that does not depend on depth. -/
theorem some_map_eq_ok_iff {r : Decoded α} {f : α → β} {y : β} :
    (some (r.map f) : Reading β) = some (.ok y) ↔ ∃ x, r = .ok x ∧ f x = y := by
  cases r <;> simp [Except.map]

@[simp] theorem mapError_eq_ok_iff {f : DecodeError → DecodeError} {x : α} :
    a.mapError f = some (.ok x) ↔ a = some (.ok x) := by
  cases a with
  | none => simp [mapError]
  | some r => cases r <;> simp [mapError]

/-! ## Ends without a result -/

/-- What a reading ends with that gives no result: an error, or no answer
at all. -/
def stop (o : Option DecodeError) : Reading α := o.map .error

@[simp] theorem stop_none : (stop none : Reading α) = none := rfl

@[simp] theorem stop_some (e : DecodeError) : (stop (some e) : Reading α) = some (.error e) := rfl

/-- A result does not depend on depth, so it is no end without one. -/
theorem some_eq_stop_iff {r : Decoded α} {o : Option DecodeError} :
    some r = (stop o : Reading α) ↔ ∃ e, r = .error e ∧ o = some e := by
  cases o with
  | none => simp
  | some e =>
    constructor
    · intro h
      exact ⟨e, Option.some.inj h, rfl⟩
    · rintro ⟨e', rfl, heq⟩
      rw [heq]
      rfl

/-- **Two readings stop** where the first does, or the second after a result
of the first. -/
theorem andThen_eq_stop_iff {f : α → Reading β} {o : Option DecodeError} :
    a.andThen f = stop o ↔ a = stop o ∨ ∃ x, a = some (.ok x) ∧ f x = stop o := by
  cases a with
  | none => cases o <;> simp [andThen]
  | some r =>
    cases r with
    | error e => cases o <;> simp [andThen]
    | ok x => cases o <;> simp [andThen]

theorem map_eq_stop_iff {f : α → β} {o : Option DecodeError} :
    a.map f = stop o ↔ a = stop o := by
  rw [map, andThen_eq_stop_iff]
  refine or_iff_left_of_imp ?_
  rintro ⟨x, -, h⟩
  cases o <;> cases h

theorem mapError_eq_stop {f : DecodeError → DecodeError} {o : Option DecodeError}
    (h : a.mapError f = stop o) : ∃ o', a = stop o' ∧ o = o'.map f := by
  cases a with
  | none =>
    refine ⟨none, rfl, ?_⟩
    cases o with
    | none => rfl
    | some e => cases h
  | some r =>
    cases r with
    | error e =>
      refine ⟨some e, rfl, ?_⟩
      cases o with
      | none => cases h
      | some e' =>
        cases h
        rfl
    | ok x => cases o <;> cases h

/-! ## Answers that stay -/

/-- Whatever one reading answers, the other one does too. -/
def Le (a b : Reading α) : Prop := ∀ r, a = some r → b = some r

theorem Le.refl (a : Reading α) : Le a a := fun _ h => h

theorem Le.trans (hab : Le a b) (hbc : Le b c) : Le a c := fun r h => hbc r (hab r h)

theorem Le.antisymm (hab : Le a b) (hba : Le b a) : a = b := by
  cases a with
  | some r => exact (hab r rfl).symm
  | none =>
    cases b with
    | some r => exact hba r rfl
    | none => rfl

theorem Le.andThen {f f' : α → Reading β} (h : Le a b) (hf : ∀ x, Le (f x) (f' x)) :
    Le (a.andThen f) (b.andThen f') := by
  cases a with
  | none => exact fun r hr => nomatch hr
  | some d =>
    rw [h d rfl]
    cases d with
    | error e => exact Le.refl _
    | ok x => exact hf x

theorem Le.map (h : Le a b) (f : α → β) : Le (a.map f) (b.map f) :=
  h.andThen fun _ => Le.refl _

theorem Le.mapError (h : Le a b) (f : DecodeError → DecodeError) :
    Le (a.mapError f) (b.mapError f) := by
  cases a with
  | none => exact fun r hr => nomatch hr
  | some d =>
    rw [h d rfl]
    exact Le.refl _

end Reading

/-! ## Sequences and mappings -/

namespace Reader

variable {read : Value → Reading Datum}

/-- Each element that was read was read from an element. -/
theorem exists_of_readList {vs : List Value} {xs : List Datum} {pos : Nat}
    (h : readList read pos vs = some (.ok xs)) : ∀ x ∈ xs, ∃ v ∈ vs, read v = some (.ok x) := by
  induction vs generalizing pos xs with
  | nil =>
    cases h
    simp
  | cons v vs ih =>
    obtain ⟨x, hx, htail⟩ := Reading.andThen_eq_ok_iff.mp h
    obtain ⟨xs', hxs, rfl⟩ := Reading.map_eq_ok_iff.mp htail
    intro y hy
    rcases List.mem_cons.mp hy with rfl | hy
    · exact ⟨v, by simp, Reading.mapError_eq_ok_iff.mp hx⟩
    · obtain ⟨u, hu, hread⟩ := ih hxs y hy
      exact ⟨u, List.mem_cons_of_mem v hu, hread⟩

/-- Each entry that was read was read from an entry of its key. -/
theorem exists_of_readEntries {es : List (Text × Value)} {xs : List (Text × Datum)}
    (h : readEntries read es = some (.ok xs)) :
    ∀ x ∈ xs, ∃ v, (x.1, v) ∈ es ∧ read v = some (.ok x.2) := by
  induction es generalizing xs with
  | nil =>
    cases h
    simp
  | cons e es ih =>
    obtain ⟨k, v⟩ := e
    obtain ⟨x, hx, htail⟩ := Reading.andThen_eq_ok_iff.mp h
    obtain ⟨xs', hxs, rfl⟩ := Reading.map_eq_ok_iff.mp htail
    intro y hy
    rcases List.mem_cons.mp hy with rfl | hy
    · exact ⟨v, by simp, Reading.mapError_eq_ok_iff.mp hx⟩
    · obtain ⟨u, hu, hread⟩ := ih hxs y hy
      exact ⟨u, List.mem_cons_of_mem _ hu, hread⟩

/-- **A sequence stops at an element** whose position is then in front of
the way to the fault. -/
theorem exists_of_readList_eq_stop {vs : List Value} {pos : Nat} {o : Option DecodeError}
    (h : readList read pos vs = Reading.stop o) : ∃ (i : Nat) (v : Value) (o' : Option DecodeError),
      vs[i]? = some v ∧ read v = Reading.stop o' ∧
        o = o'.map (·.inField (Text.ofNat (pos + i))) := by
  induction vs generalizing pos with
  | nil => cases o <;> cases h
  | cons v vs ih =>
    rcases Reading.andThen_eq_stop_iff.mp h with hhead | ⟨x, -, htail⟩
    · obtain ⟨o', hread, rfl⟩ := Reading.mapError_eq_stop hhead
      exact ⟨0, v, o', rfl, hread, rfl⟩
    · obtain ⟨i, u, o', hu, hread, rfl⟩ := ih (Reading.map_eq_stop_iff.mp htail)
      refine ⟨i + 1, u, o', hu, hread, ?_⟩
      rw [show pos + (i + 1) = pos + 1 + i by omega]

/-- And a mapping at an entry. -/
theorem exists_of_readEntries_eq_stop {es : List (Text × Value)} {o : Option DecodeError}
    (h : readEntries read es = Reading.stop o) : ∃ (k : Text) (v : Value) (o' : Option DecodeError),
      (k, v) ∈ es ∧ read v = Reading.stop o' ∧ o = o'.map (·.inField k) := by
  induction es with
  | nil => cases o <;> cases h
  | cons e es ih =>
    obtain ⟨k, v⟩ := e
    rcases Reading.andThen_eq_stop_iff.mp h with hhead | ⟨x, -, htail⟩
    · obtain ⟨o', hread, rfl⟩ := Reading.mapError_eq_stop hhead
      exact ⟨k, v, o', List.mem_cons_self, hread, rfl⟩
    · obtain ⟨k', u, o', hu, hread, rfl⟩ := ih (Reading.map_eq_stop_iff.mp htail)
      exact ⟨k', u, o', List.mem_cons_of_mem _ hu, hread, rfl⟩

/-! ## Keys -/

section Keys

variable {es : List (Text × Value)} {key : Text} {x zero : Datum}

theorem of_readRequired (h : readRequired read es key = some (.ok x)) :
    ∃ v, Text.lookup? key es = some v ∧ read v = some (.ok x) := by
  rw [readRequired] at h
  split at h
  · exact ⟨_, ‹_›, Reading.mapError_eq_ok_iff.mp h⟩
  · cases h

theorem of_readOptional (h : readOptional read zero es key = some (.ok x)) :
    (∃ v, Text.lookup? key es = some v ∧ read v = some (.ok x)) ∨ x = zero := by
  rw [readOptional] at h
  split at h
  · exact Or.inl ⟨_, ‹_›, Reading.mapError_eq_ok_iff.mp h⟩
  · cases h
    exact Or.inr rfl

/-- **A key that has to be there stops** at its value, or because it is not
there. -/
theorem readRequired_eq_stop {o : Option DecodeError}
    (h : readRequired read es key = Reading.stop o) :
    (∃ v o', Text.lookup? key es = some v ∧ read v = Reading.stop o' ∧
      o = o'.map (·.inField key)) ∨
    (Text.lookup? key es = none ∧ o = some { failure := .missingField, path := [key] }) := by
  rw [readRequired] at h
  split at h
  · obtain ⟨o', hread, rfl⟩ := Reading.mapError_eq_stop h
    exact Or.inl ⟨_, o', ‹_›, hread, rfl⟩
  · obtain ⟨e, he, rfl⟩ := Reading.some_eq_stop_iff.mp h
    cases he
    exact Or.inr ⟨‹_›, rfl⟩

theorem readOptional_eq_stop {o : Option DecodeError}
    (h : readOptional read zero es key = Reading.stop o) :
    ∃ v o', Text.lookup? key es = some v ∧ read v = Reading.stop o' ∧
      o = o'.map (·.inField key) := by
  rw [readOptional] at h
  split at h
  · obtain ⟨o', hread, rfl⟩ := Reading.mapError_eq_stop h
    exact ⟨_, o', ‹_›, hread, rfl⟩
  · cases o <;> cases h

/-- A key that is there is read, whether it has to be there or not. -/
theorem readRequired_of_lookup? {v : Value} (hl : Text.lookup? key es = some v)
    (h : read v = some (.ok x)) : readRequired read es key = some (.ok x) := by
  rw [readRequired, hl]
  exact Reading.mapError_eq_ok_iff.mpr h

theorem readOptional_of_lookup? {v : Value} (hl : Text.lookup? key es = some v)
    (h : read v = some (.ok x)) : readOptional read zero es key = some (.ok x) := by
  rw [readOptional, hl]
  exact Reading.mapError_eq_ok_iff.mpr h

end Keys

/-! ## Indirections -/

section Indirections

variable {f : DeclId → Value → Reading Datum} {item : Reader} {v : Value}

theorem run_optional_of_ne (hv : v ≠ .null) :
    (optional item).run f v = (item.run f v).map .present := by
  cases v <;> first | rfl | exact absurd rfl hv

theorem run_nullable_of_ne (hv : v ≠ .null) :
    (nullable item).run f v = (item.run f v).map .present := by
  cases v <;> first | rfl | exact absurd rfl hv

theorem run_boxed_of_ne (hv : v ≠ .null) :
    (boxed item).run f v = (item.run f v).map .present := by
  cases v <;> first | rfl | exact absurd rfl hv

/-- **An optional is absent** if it was read from null, and otherwise what
was read from the value. -/
theorem of_run_optional {x : Datum} (h : (optional item).run f v = some (.ok x)) :
    (v = .null ∧ x = .absent) ∨
      v ≠ .null ∧ ∃ y, item.run f v = some (.ok y) ∧ x = .present y := by
  by_cases hv : v = .null
  · subst hv
    cases h
    exact Or.inl ⟨rfl, rfl⟩
  · rw [run_optional_of_ne hv] at h
    obtain ⟨y, hy, rfl⟩ := Reading.map_eq_ok_iff.mp h
    exact Or.inr ⟨hv, y, hy, rfl⟩

theorem of_run_nullable {x : Datum} (h : (nullable item).run f v = some (.ok x)) :
    (v = .null ∧ x = .absent) ∨
      v ≠ .null ∧ ∃ y, item.run f v = some (.ok y) ∧ x = .present y :=
  of_run_optional (by cases v <;> exact h)

/-- **A value behind an indirection** is not read from null. -/
theorem of_run_boxed {x : Datum} (h : (boxed item).run f v = some (.ok x)) :
    v ≠ .null ∧ ∃ y, item.run f v = some (.ok y) ∧ x = .present y := by
  by_cases hv : v = .null
  · subst hv
    cases h
  · rw [run_boxed_of_ne hv] at h
    obtain ⟨y, hy, rfl⟩ := Reading.map_eq_ok_iff.mp h
    exact ⟨hv, y, hy, rfl⟩

end Indirections

end Reader

end WireModel
