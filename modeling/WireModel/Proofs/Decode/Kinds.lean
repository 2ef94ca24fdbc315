import WireModel.Proofs.Decode.Place

/-!
# Kinds of failures — in which ways a reading may fail

`Reading.FailsIn` says of a reading that, if it fails, it does so in one of
some ways. It passes through everything that readers are put together
with: an error on its way up gets a place, and keeps its kind. Each scalar
fails in at most two ways, a mismatch and one of its own.
-/

namespace WireModel

/-! ## How readings fail -/

namespace Reading

variable {α β : Type} {S T : Failure → Prop} {a : Reading α}

/-- **A reading fails in given ways only.** -/
def FailsIn (S : Failure → Prop) (a : Reading α) : Prop :=
  ∀ e, a = some (.error e) → S e.failure

theorem FailsIn.mono (h : a.FailsIn S) (hST : ∀ k, S k → T k) : a.FailsIn T :=
  fun e he => hST _ (h e he)

theorem failsIn_ok (x : α) : FailsIn S (some (.ok x)) := fun _ h => nomatch h

theorem failsIn_none : FailsIn S (none : Reading α) := fun _ h => nomatch h

theorem FailsIn.andThen (h : a.FailsIn S) {f : α → Reading β}
    (hf : ∀ x, a = some (.ok x) → (f x).FailsIn S) : (a.andThen f).FailsIn S := by
  intro e he
  rcases andThen_eq_stop_iff (o := some e).mp he with ha | ⟨x, hx, hfx⟩
  · exact h e ha
  · exact hf x hx e hfx

theorem FailsIn.map (h : a.FailsIn S) (f : α → β) : (a.map f).FailsIn S :=
  h.andThen fun _ _ => failsIn_ok _

theorem FailsIn.mapError (h : a.FailsIn S) {f : DecodeError → DecodeError}
    (hf : ∀ e, (f e).failure = e.failure) : (a.mapError f).FailsIn S := by
  intro e he
  obtain ⟨o, ho, heq⟩ := mapError_eq_stop (o := some e) he
  obtain ⟨e', rfl, rfl⟩ := Option.map_eq_some_iff.mp heq.symm
  rw [hf]
  exact h e' ho

theorem FailsIn.inField (h : a.FailsIn S) (key : Text) : (a.mapError (·.inField key)).FailsIn S :=
  h.mapError fun _ => rfl

theorem FailsIn.inDecl (h : a.FailsIn S) (decl : Text) :
    (a.mapError (·.inDecl decl)).FailsIn S := by
  refine h.mapError fun e => ?_
  rw [DecodeError.inDecl]
  split <;> rfl

/-- What does not depend on depth fails as it does. -/
theorem failsIn_map_some {x : Decoded α} (f : α → β)
    (h : ∀ e, x = .error e → S e.failure) : FailsIn S (some (x.map f)) := by
  intro e he
  cases x with
  | error e' =>
    cases he
    exact h e rfl
  | ok y => cases he

end Reading

namespace Reader

open Reading

variable {read : Value → Reading Datum} {S : Failure → Prop}

theorem failsIn_readList (h : ∀ u, (read u).FailsIn S) (pos : Nat) (vs : List Value) :
    (readList read pos vs).FailsIn S := by
  induction vs generalizing pos with
  | nil => exact failsIn_ok _
  | cons v vs ih =>
    exact ((h v).inField _).andThen fun _ _ => (ih (pos + 1)).map _

theorem failsIn_readEntries (h : ∀ u, (read u).FailsIn S) (es : List (Text × Value)) :
    (readEntries read es).FailsIn S := by
  induction es with
  | nil => exact failsIn_ok _
  | cons e es ih =>
    exact ((h e.2).inField e.1).andThen fun _ _ => ih.map _

theorem failsIn_readRequired (h : ∀ u, (read u).FailsIn S) (hmissing : S .missingField)
    (es : List (Text × Value)) (key : Text) : (readRequired read es key).FailsIn S := by
  rw [readRequired]
  split
  · exact (h _).inField key
  · intro e he
    cases he
    exact hmissing

theorem failsIn_readOptional (h : ∀ u, (read u).FailsIn S) (zero : Datum)
    (es : List (Text × Value)) (key : Text) : (readOptional read zero es key).FailsIn S := by
  rw [readOptional]
  split
  · exact (h _).inField key
  · exact failsIn_ok _

end Reader

/-! ## How scalars fail -/

@[simp] theorem DecodeError.failure_mismatch (want : Text) (v : Value) :
    (mismatch want v).failure = .typeMismatch := rfl

@[simp] theorem DecodeError.failure_numeric (detail : Text) :
    (numeric detail).failure = .malformedNumeric := rfl

namespace Value

variable {v : Value} {e : DecodeError}

theorem failure_of_toBool (h : v.toBool = .error e) : e.failure ∈ [Failure.typeMismatch] := by
  cases v <;> cases h <;> simp

theorem failure_of_toText (h : v.toText = .error e) : e.failure ∈ [Failure.typeMismatch] := by
  cases v <;> cases h <;> simp

theorem failure_of_toInt64 (h : v.toInt64 = .error e) :
    e.failure ∈ [Failure.typeMismatch, .malformedNumeric] := by
  cases v with
  | int k n =>
    cases k with
    | uint | uint64 =>
      rw [toInt64] at h
      split at h <;> cases h
      simp
    | _ => cases h
  | float64 bits | float32 bits =>
    rw [toInt64, intOfDouble] at h
    split at h <;> cases h
    simp
  | number t =>
    rw [toInt64] at h
    split at h <;> cases h
    simp
  | _ =>
    cases h
    simp

theorem failure_of_toInt {width : Nat} (h : v.toInt width = .error e) :
    e.failure ∈ [Failure.typeMismatch, .malformedNumeric] := by
  rw [toInt] at h
  cases hn : v.toInt64 with
  | error e' =>
    rw [hn] at h
    cases h
    exact failure_of_toInt64 hn
  | ok n =>
    simp only [hn, bind, Except.bind] at h
    split at h <;> cases h
    simp

theorem failure_of_toFloat (h : v.toFloat = .error e) :
    e.failure ∈ [Failure.typeMismatch, .malformedNumeric] := by
  cases v with
  | int k n =>
    cases k with
    | uint =>
      rw [toFloat] at h
      split at h <;> cases h
      simp
    | _ => cases h
  | number t =>
    rw [toFloat] at h
    split at h <;> cases h
    simp
  | float64 bits | float32 bits => cases h
  | _ =>
    cases h
    simp

theorem failure_of_toBigint (h : v.toBigint = .error e) :
    e.failure ∈ [Failure.typeMismatch, .malformedNumeric] := by
  cases v with
  | text t =>
    rw [toBigint] at h
    split at h <;> cases h
    simp
  | _ =>
    cases h
    simp

theorem failure_of_toDecimal (h : v.toDecimal = .error e) :
    e.failure ∈ [Failure.typeMismatch, .malformedNumeric] := by
  cases v with
  | text t =>
    rw [toDecimal] at h
    split at h <;> cases h
    simp
  | _ =>
    cases h
    simp

theorem failure_of_toBytes (h : v.toBytes = .error e) :
    e.failure ∈ [Failure.typeMismatch, .malformedBytes] := by
  cases v with
  | bytes bs => cases h
  | list vs =>
    obtain ⟨i, u, -, -, hf, -⟩ := exists_of_toByteList_error h
    simp [hf]
  | _ =>
    cases h
    simp

theorem failure_of_textEntries {ps : List (Value × Value)} (h : textEntries ps = .error e) :
    e.failure = .typeMismatch := by
  induction ps with
  | nil => cases h
  | cons p ps ih =>
    obtain ⟨k, u⟩ := p
    cases k with
    | text k =>
      cases hps : textEntries ps with
      | error e' =>
        simp only [textEntries, hps, bind, Except.bind] at h
        cases h
        exact ih hps
      | ok es =>
        simp only [textEntries, hps, bind, Except.bind] at h
        cases h
    | _ =>
      cases h
      rfl

theorem failure_of_toObject (h : v.toObject = .error e) : e.failure = .typeMismatch := by
  cases v with
  | map es => cases h
  | anyMap ps => exact failure_of_textEntries h
  | _ =>
    cases h
    rfl

end Value

end WireModel
