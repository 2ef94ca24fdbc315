import WireModel.Proofs.Decode.Integer
import WireModel.Proofs.Number.Json

/-!
# Numbers of every kind — judged by value

A decoder of integers is to look at the number that it is given and not
at the kind in which the number came. It does so (`Value.numbers_judged`)
with two exceptions. A number that is kept as written is read if it is
written by a sign and digits, and not with a point or an exponent, even if
it is an integer that fits. And an integer of the kind `uint` that is no
signed word is refused as if it were no number, by the decoder of floating
point numbers too. Every other number that is refused is refused as a
malformed one, and only what is no number as a mismatch.
-/

namespace WireModel

namespace Value

/-- **A number as it can be given**: an integer is one of the words of its
kind, and what is kept as written is a number of a document. -/
def IsProper : Value → Prop
  | int k n => k.holds n = true
  | float64 _ | float32 _ => True
  | number t => ∃ p : JsonNumber, t = p.text
  | _ => False

/-- A number that is kept as written, with a point or an exponent. -/
def HasPointOrExponent (v : Value) : Prop := ∃ p : JsonNumber, v = number p.text ∧ ¬ p.IsPlain

/-- An integer of the kind `uint` that is no signed word. -/
def IsWideUint (v : Value) : Prop := ∃ n : Int, v = int .uint n ∧ 2 ^ 63 ≤ n

variable {v : Value} {n : Int} {width : Nat} {e : DecodeError}

theorem not_hasPointOrExponent (h : ∀ t, v ≠ number t) : ¬ v.HasPointOrExponent := by
  rintro ⟨p, hv, -⟩
  exact h _ hv

theorem not_isWideUint (h : ∀ n, v ≠ int .uint n) : ¬ v.IsWideUint := by
  rintro ⟨n, hv, -⟩
  exact h n hv

/-- An unsigned word is a signed one unless it is past them. -/
theorem fitsSigned_iff_not_isWideUint (hv : (int .uint n).IsProper) :
    fitsSigned 64 n = true ↔ ¬ (int .uint n).IsWideUint := by
  have hn := (IntKind.holds_iff rfl).mp hv
  have hwide : (int .uint n).IsWideUint ↔ 2 ^ 63 ≤ n := by simp [IsWideUint]
  rw [hwide, fitsSigned_iff]
  omega

/-! ## What is read -/

/-- **An integer that fits a word is read**, in whatever kind it is given,
but for one that is written with a point or an exponent. -/
theorem toInt64_eq_ok_iff (hv : v.IsProper) (hexact : v.rational? = some (n : ℚ))
    (hfit : fitsSigned 64 n = true) : v.toInt64 = .ok n ↔ ¬ v.HasPointOrExponent := by
  cases v with
  | int k m =>
    have hm : m = n := Int.cast_inj.mp (Option.some.inj hexact)
    have hread : (int k m).toInt64 = .ok n := by
      rw [hm]
      cases k with
      | uint | uint64 => rw [toInt64, if_pos hfit]
      | _ => rfl
    exact iff_of_true hread (not_hasPointOrExponent fun t => by simp)
  | float64 bits =>
    have hint := BinaryValue.toInt?_eq_some_iff.mpr ((Binary.rational?_decode bits).trans hexact)
    exact iff_of_true (intOfDouble_eq_ok_iff.mpr ⟨hint, hfit⟩)
      (not_hasPointOrExponent fun t => by simp)
  | float32 bits =>
    have hint := BinaryValue.toInt?_eq_some_iff.mpr ((Binary.rational?_decode bits).trans hexact)
    rw [← Binary.toInt?_widen] at hint
    exact iff_of_true (intOfDouble_eq_ok_iff.mpr ⟨hint, hfit⟩)
      (not_hasPointOrExponent fun t => by simp)
  | number t =>
    obtain ⟨p, rfl⟩ := hv
    have hvalue : p.value = n := by
      rwa [rational?, JsonNumber.rational?_text, Option.some_inj] at hexact
    have hread : (number p.text).toInt64 = .ok n ↔ p.text.toInteger? = some n := by
      rw [toInt64, Text.toSigned?]
      constructor
      · intro h
        split at h
        · rename_i m hm
          rw [← Except.ok.inj h]
          exact (Option.filter_eq_some_iff.mp hm).1
        · cases h
      · intro h
        simp [h, Option.filter, hfit]
    rw [hread, JsonNumber.toInteger?_text_eq_some_iff]
    constructor
    · rintro ⟨hplain, -⟩ ⟨q, hq, hmarked⟩
      -- another reading of the same text would be without marks as well
      rw [number.injEq] at hq
      have hq' := JsonNumber.toInteger?_text_eq_some_iff.mpr ⟨hplain, hvalue⟩
      rw [hq] at hq'
      exact hmarked (JsonNumber.toInteger?_text_eq_some_iff.mp hq').1
    · intro h
      exact ⟨by_contra fun hmarked => h ⟨p, rfl, hmarked⟩, hvalue⟩
  | _ => cases hv

/-! ## What is refused -/

/-- The failure of a number that is refused: a wide `uint` is taken for
something else, and every other number is malformed. -/
def RefusedAs (v : Value) (e : DecodeError) : Prop :=
  e.failure = .typeMismatch ∧ v.IsWideUint ∨ e.failure = .malformedNumeric ∧ ¬ v.IsWideUint

theorem refusedAs_mismatch (hv : (int .uint n).IsProper) (hfit : ¬ fitsSigned 64 n = true)
    (want : Text) : (int .uint n).RefusedAs (.mismatch want (int .uint n)) :=
  Or.inl ⟨rfl, not_not.mp (mt (fitsSigned_iff_not_isWideUint hv).mpr hfit)⟩

theorem refusedAs_numeric (h : ∀ n, v ≠ int .uint n) (detail : Text) :
    v.RefusedAs (.numeric detail) := Or.inr ⟨rfl, not_isWideUint h⟩

theorem refusedAs_intOfDouble {bits : Nat} (hv : ∀ n, v ≠ int .uint n)
    (h : intOfDouble bits = .error e) : v.RefusedAs e := by
  rw [intOfDouble] at h
  split at h
  · cases h
  · rw [← Except.error.inj h]
    exact refusedAs_numeric hv _

theorem refusedAs_of_toInt64 (hv : v.IsProper) (h : v.toInt64 = .error e) : v.RefusedAs e := by
  cases v with
  | int k m =>
    cases k with
    | uint =>
      rw [toInt64] at h
      split at h
      · cases h
      · rename_i hfit
        rw [← Except.error.inj h]
        exact refusedAs_mismatch hv hfit _
    | uint64 =>
      rw [toInt64] at h
      split at h
      · cases h
      · rw [← Except.error.inj h]
        exact refusedAs_numeric (by simp) _
    | _ => cases h
  | float64 bits => exact refusedAs_intOfDouble (by simp) h
  | float32 bits => exact refusedAs_intOfDouble (by simp) h
  | number t =>
    rw [toInt64] at h
    split at h
    · cases h
    · rw [← Except.error.inj h]
      exact refusedAs_numeric (by simp) _
  | _ => cases hv

/-- **Why a number is refused as an integer** of a width. -/
theorem refusedAs_of_toInt (hv : v.IsProper) (h : v.toInt width = .error e) :
    v.RefusedAs e := by
  rw [toInt] at h
  cases hread : v.toInt64 with
  | error e' =>
    rw [hread] at h
    rw [← Except.error.inj h]
    exact refusedAs_of_toInt64 hv hread
  | ok m =>
    simp only [hread, bind, Except.bind] at h
    split at h
    · cases h
    · rw [← Except.error.inj h]
      refine Or.inr ⟨rfl, ?_⟩
      -- what was read is a signed word
      rintro ⟨n, rfl, hn⟩
      rw [toInt64] at hread
      split at hread
      · rename_i hfit
        exact (fitsSigned_iff_not_isWideUint hv).mp hfit ⟨n, rfl, hn⟩
      · cases hread

/-- **And why it is refused as a floating point number.** -/
theorem refusedAs_of_toFloat (hv : v.IsProper) (h : v.toFloat = .error e) : v.RefusedAs e := by
  cases v with
  | int k m =>
    cases k with
    | uint =>
      rw [toFloat] at h
      split at h
      · cases h
      · rename_i hfit
        rw [← Except.error.inj h]
        exact refusedAs_mismatch hv hfit _
    | _ => cases h
  | number t =>
    rw [toFloat] at h
    split at h
    · cases h
    · rw [← Except.error.inj h]
      exact refusedAs_numeric (by simp) _
  | float64 bits => cases h
  | float32 bits => cases h
  | _ => cases hv

/-- **Integers are read as floating point numbers**, but for a wide
`uint`. -/
theorem exists_toFloat_iff {k : IntKind} (hv : (int k n).IsProper) :
    (∃ x, (int k n).toFloat = .ok x) ↔ ¬ (int k n).IsWideUint := by
  cases k with
  | uint =>
    rw [← fitsSigned_iff_not_isWideUint hv, toFloat]
    split
    · rename_i hfit
      exact iff_of_true ⟨_, rfl⟩ hfit
    · rename_i hfit
      exact iff_of_false (by rintro ⟨x, hx⟩; cases hx) hfit
  | _ => exact iff_of_true ⟨_, rfl⟩ (not_isWideUint (by simp))

/-- What is no number is refused as a mismatch, whatever number is asked
for. -/
theorem mismatch_of_not_isNumeric (width : Nat) (h : ¬ v.IsNumeric) :
    v.toInt width = .error (.mismatch "integer" v) ∧
      v.toFloat = .error (.mismatch "number" v) := by
  cases v with
  | int k m => exact absurd trivial h
  | float64 bits => exact absurd trivial h
  | float32 bits => exact absurd trivial h
  | number t => exact absurd trivial h
  | _ => exact ⟨rfl, rfl⟩

/-- **Numbers are judged by value**, with two exceptions. A number whose
exact value is an integer of the width is read unless it is written with a
point or an exponent. A number that is refused, as an integer or as a
floating point number, is refused as malformed unless it is a wide `uint`,
which is refused as a mismatch. Integers of all kinds are read as floating
point numbers, but for wide ones of the kind `uint`. And what is no number
is refused as a mismatch. -/
theorem numbers_judged (hwidth : width ∈ [8, 16, 32, 64]) (v : Value) :
    (v.IsProper →
      (∀ n : Int, v.rational? = some (n : ℚ) → InRange width n →
        (v.toInt width = .ok n ↔ ¬ v.HasPointOrExponent)) ∧
      (∀ e, v.toInt width = .error e ∨ v.toFloat = .error e →
        e.failure = .typeMismatch ∧ v.IsWideUint ∨
          e.failure = .malformedNumeric ∧ ¬ v.IsWideUint) ∧
      (∀ k n, v = .int k n → ((∃ x, v.toFloat = .ok x) ↔ ¬ v.IsWideUint))) ∧
    (¬ v.IsNumeric → ∃ e e', v.toInt width = .error e ∧ v.toFloat = .error e' ∧
      e.failure = .typeMismatch ∧ e'.failure = .typeMismatch) := by
  refine ⟨fun hv => ⟨fun n hexact hrange => ?_, ?_, ?_⟩, fun hother => ?_⟩
  · have hfit := fitsSigned_mono (width_bounds hwidth).2 (fitsSigned_iff_inRange.mpr hrange)
    rw [toInt_eq_ok_iff, toInt64_eq_ok_iff hv hexact hfit]
    exact and_iff_left hrange
  · rintro e (h | h)
    · exact refusedAs_of_toInt hv h
    · exact refusedAs_of_toFloat hv h
  · rintro k n rfl
    exact exists_toFloat_iff hv
  · obtain ⟨hint, hfloat⟩ := mismatch_of_not_isNumeric width hother
    exact ⟨_, _, hint, hfloat, rfl, rfl⟩

namespace Sample

/-- One hundred, written with an exponent. -/
def hundred : JsonNumber where
  negative := false
  whole := "1"
  places := none
  exponent := some
    { mark := 'e'.toUInt8, sign := [], digits := "2", isMark := Or.inl rfl, isSign := Or.inl rfl,
      isDigits := ⟨by decide, List.all_eq_true.mp rfl⟩ }
  isWhole := ⟨by decide, List.all_eq_true.mp rfl⟩
  noLeadingZero := by rintro ds ⟨⟩
  isPlaces := by simp

theorem rational?_hundred : (number hundred.text).rational? = some ((100 : Int) : ℚ) := by
  have hwhole : Text.placeValue "1" = 1 := rfl
  have hexponent : Text.placeValue "2" = 2 := rfl
  have hvalue : hundred.value = 100 := by
    norm_num [JsonNumber.value, hundred, JsonExponent.value, hwhole, hexponent, Text.placeValue]
  rw [rational?, JsonNumber.rational?_text, hvalue]
  norm_num

/-- The first integer past the signed words, in the kind `uint`. -/
def wideUint : Value := int .uint (2 ^ 63)

/-- **Two numbers that are misjudged**: one hundred is refused as an integer
of 8 bits, and the integer past the signed words is refused as a mismatch
by the decoders of integers and of floating point numbers. -/
theorem numbers_misjudged :
    ((number hundred.text).IsProper ∧ (number hundred.text).rational? = some ((100 : Int) : ℚ) ∧
      InRange 8 100 ∧ ∃ e, (number hundred.text).toInt 8 = .error e) ∧
    (wideUint.IsProper ∧ wideUint.IsNumeric ∧
      (∃ e, wideUint.toInt 64 = .error e ∧ e.failure = .typeMismatch) ∧
      ∃ e, wideUint.toFloat = .error e ∧ e.failure = .typeMismatch) := by
  refine ⟨⟨⟨hundred, rfl⟩, rational?_hundred, by decide, ⟨_, rfl⟩⟩, ?_⟩
  have hword : IntKind.uint.holds (2 ^ 63) = true := by decide
  exact ⟨hword, trivial, ⟨_, rfl, rfl⟩, ⟨_, rfl, rfl⟩⟩

/-- The floating point number one hundred. -/
def hundredDouble : Value := float64 0x4059000000000000

theorem rational?_hundredDouble : hundredDouble.rational? = some ((100 : Int) : ℚ) := by
  have hdecode : Binary.double.decode 0x4059000000000000 = .finite false (25 * 2 ^ 48) (-46) := by
    decide +kernel
  rw [hundredDouble, rational?, ← Binary.rational?_decode, hdecode, BinaryValue.rational?]
  norm_num

/-- **Judged by value**: the floating point number one hundred is read as an
integer of 8 bits, one and a half times as much is refused as malformed,
and so is, of 64 bits, the integer past the signed words in the kind
`uint64`, which is read as a floating point number. -/
theorem numbers_well_judged :
    hundredDouble.toInt 8 = .ok 100 ∧
    (∃ e, (float64 0x4062C00000000000).toInt 8 = .error e ∧ e.failure = .malformedNumeric) ∧
    (∃ e, (int .uint64 (2 ^ 63)).toInt 64 = .error e ∧ e.failure = .malformedNumeric) ∧
    (∃ x, (int .uint64 (2 ^ 63)).toFloat = .ok x) ∧
    (∃ e e', (text "100").toInt 8 = .error e ∧ (text "100").toFloat = .error e' ∧
      e.failure = .typeMismatch ∧ e'.failure = .typeMismatch) := by
  have hnarrow : 8 ∈ [8, 16, 32, 64] := by decide
  have hwide : 64 ∈ [8, 16, 32, 64] := by decide
  -- none of these is of the kind `uint`, so what is refused is malformed
  have hmalformed : ∀ {width : Nat} {v : Value}, width ∈ [8, 16, 32, 64] → v.IsProper →
      (∀ n, v ≠ int .uint n) → (∃ e, v.toInt width = .error e) →
      ∃ e, v.toInt width = .error e ∧ e.failure = .malformedNumeric := by
    rintro width v hwidth hv huint ⟨e, he⟩
    have hfailure := ((numbers_judged hwidth v).1 hv).2.1 e (Or.inl he)
    exact ⟨e, he, (hfailure.resolve_left fun h => not_isWideUint huint h.2).1⟩
  have hword : IntKind.uint64.holds (2 ^ 63) = true := by decide
  have hfloat := ((numbers_judged hwide (int .uint64 (2 ^ 63))).1 hword).2.2 _ _ rfl
  refine ⟨?_, hmalformed hnarrow trivial (by simp) ⟨_, rfl⟩,
    hmalformed hwide hword (by simp) ⟨_, rfl⟩, hfloat.mpr (not_isWideUint (by simp)),
    (numbers_judged hnarrow (text "100")).2 id⟩
  have hread := ((numbers_judged hnarrow hundredDouble).1 trivial).1 100 rational?_hundredDouble
  exact (hread (by decide)).mpr (not_hasPointOrExponent fun t => by simp [hundredDouble])

end Sample

end Value

end WireModel
