import Mathlib.Data.Int.Cast.Lemmas
import WireModel.Decode.Word
import WireModel.Proofs.Decode.Exact

/-!
# Machine words — no conversion goes wrong unseen

Reading a number by its value and reading it in machine words is the same
(`Value.toWord_eq`): the tests around the conversions refuse a number
exactly if one of them would change it. Cutting a word down to a width and
widening it again changes it if and only if it does not fit
(`signExtend_setWidth_eq_iff`). For a floating point number the tests
before the conversion are enough (`BinaryValue.words_of_toInt?`), though
the greatest word is none.
-/

namespace WireModel

/-! ## Words of two widths -/

/-- The bounds of the signed words of a width. -/
theorem fitsSigned_iff {width : Nat} {n : Int} : fitsSigned width n = true ↔
    -((2 ^ (width - 1) : Nat) : Int) ≤ n ∧ n < (2 ^ (width - 1) : Nat) := by
  simp [fitsSigned, twoPow_eq]

/-- What fits a word fits every wider one. -/
theorem fitsSigned_mono {a b : Nat} (hab : a ≤ b) {n : Int} (h : fitsSigned a n = true) :
    fitsSigned b n = true := by
  have hle : ((2 ^ (a - 1) : Nat) : Int) ≤ (2 ^ (b - 1) : Nat) :=
    Int.ofNat_le.mpr (Nat.pow_le_pow_right (by omega) (by omega))
  rw [fitsSigned_iff] at h ⊢
  omega

/-- What is left of an integer in a word is the integer if it fits. -/
theorem bmod_eq_self_iff_fitsSigned {width : Nat} (hwidth : 0 < width) {n : Int} :
    n.bmod (2 ^ width) = n ↔ fitsSigned width n = true := by
  have hhalf : 2 ^ width = 2 * 2 ^ (width - 1) := by
    rw [← Nat.pow_succ', Nat.succ_eq_add_one, Nat.sub_add_cancel hwidth]
  have hpos : 0 < 2 ^ width := Nat.pow_pos (by omega)
  rw [fitsSigned_iff]
  constructor
  · intro h
    have hlow := Int.le_bmod (x := n) hpos
    have hhigh := Int.bmod_lt (x := n) hpos
    omega
  · intro h
    exact Int.bmod_eq_of_le (by omega) (by omega)

variable {width : Nat}

/-- A word that is cut down is what is left of its integer. -/
theorem toInt_setWidth_eq (hwidth : width ≤ 64) (x : BitVec 64) :
    (x.setWidth width).toInt = x.toInt.bmod (2 ^ width) := by
  have hdvd : 2 ^ width ∣ 2 ^ 64 := Nat.pow_dvd_pow 2 hwidth
  rw [BitVec.toInt_setWidth, BitVec.toInt_eq_toNat_bmod, Int.bmod_bmod_of_dvd hdvd]

theorem setWidth_ofInt_eq (hwidth : width ≤ 64) (n : Int) :
    (BitVec.ofInt 64 n).setWidth width = BitVec.ofInt width n := by
  have hdvd : 2 ^ width ∣ 2 ^ 64 := Nat.pow_dvd_pow 2 hwidth
  apply BitVec.eq_of_toInt_eq
  rw [toInt_setWidth_eq hwidth, BitVec.toInt_ofInt, BitVec.toInt_ofInt,
    Int.bmod_bmod_of_dvd hdvd]

/-- **Cutting a word down and widening it again** changes it if and only if
it does not fit. -/
theorem signExtend_setWidth_eq_iff (hpos : 0 < width) (hwidth : width ≤ 64) {x : BitVec 64} :
    (x.setWidth width).signExtend 64 = x ↔ fitsSigned width x.toInt = true := by
  rw [← BitVec.toInt_inj, BitVec.toInt_signExtend_of_le hwidth, toInt_setWidth_eq hwidth]
  exact bmod_eq_self_iff_fitsSigned hpos

/-- A word stands for the integer it was made of, if that fits. -/
theorem toInt_ofInt_of_fitsSigned (hpos : 0 < width) {n : Int} (h : fitsSigned width n = true) :
    (BitVec.ofInt width n).toInt = n := by
  rw [BitVec.toInt_ofInt]
  exact (bmod_eq_self_iff_fitsSigned hpos).mpr h

/-- What the words of a kind without a sign hold. -/
theorem IntKind.holds_iff {k : IntKind} (hk : k.isUnsigned = true) {n : Int} :
    k.holds n = true ↔ 0 ≤ n ∧ n < (2 ^ k.width : Nat) := by
  rw [holds, if_pos hk, Bool.and_eq_true, decide_eq_true_eq, decide_eq_true_eq, twoPow_eq]

/-- And what those of a kind with a sign hold. -/
theorem IntKind.holds_eq_fitsSigned {k : IntKind} (hk : ¬ k.isUnsigned = true) (n : Int) :
    k.holds n = fitsSigned k.width n := by
  rw [holds, if_neg hk]

/-- **Widening a word** that holds an integer keeps the integer. -/
theorem IntKind.widen_ofInt {k : IntKind} {n : Int} (h : k.holds n = true) :
    k.widen (BitVec.ofInt k.width n) = BitVec.ofInt 64 n := by
  have hpos : 0 < k.width := by cases k <;> decide
  have hwidth : k.width ≤ 64 := by cases k <;> decide
  by_cases hk : k.isUnsigned = true
  · -- the word is filled up with zeros
    have hn := (holds_iff hk).mp h
    rw [widen, if_pos hk]
    have hle : ((2 ^ k.width : Nat) : Int) ≤ (2 ^ 64 : Nat) :=
      Int.ofNat_le.mpr (Nat.pow_le_pow_right (by omega) hwidth)
    apply BitVec.eq_of_toNat_eq
    rw [BitVec.toNat_setWidth_of_le hwidth, BitVec.toNat_ofInt, BitVec.toNat_ofInt,
      Int.emod_eq_of_lt hn.1 hn.2, Int.emod_eq_of_lt hn.1 (by omega)]
  · rw [holds_eq_fitsSigned hk] at h
    rw [widen, if_neg hk]
    apply BitVec.eq_of_toInt_eq
    rw [BitVec.toInt_signExtend_of_le hwidth, toInt_ofInt_of_fitsSigned hpos h,
      toInt_ofInt_of_fitsSigned (by decide) (fitsSigned_mono hwidth h)]

/-- Words of every kind are signed words of 64 bits, but for those without
a sign that are as wide. -/
theorem IntKind.fitsSigned_of_holds {k : IntKind} {n : Int} (h : k.holds n = true)
    (huint : k ≠ .uint) (huint64 : k ≠ .uint64) : fitsSigned 64 n = true := by
  have hwidth : k.width ≤ 64 := by cases k <;> decide
  by_cases hk : k.isUnsigned = true
  · have hnarrow : k.width ≤ 32 := by
      cases k with
      | uint => exact absurd rfl huint
      | uint64 => exact absurd rfl huint64
      | uint8 | uint16 | uint32 => decide
      | int | int8 | int16 | int32 | int64 => cases hk
    have hle : ((2 ^ k.width : Nat) : Int) ≤ (2 ^ 32 : Nat) :=
      Int.ofNat_le.mpr (Nat.pow_le_pow_right (by omega) hnarrow)
    have hn := (holds_iff hk).mp h
    rw [fitsSigned_iff]
    omega
  · rw [holds_eq_fitsSigned hk] at h
    exact fitsSigned_mono hwidth h

/-! ## Floating point numbers -/

namespace BinaryValue

/-- **An integer passes the tests on its value**: nothing is after its
point, and it is compared as itself. -/
theorem words_of_toInt? {x : BinaryValue} {n : Int} (h : x.toInt? = some n) :
    x.isWhole = true ∧ x.cut = n ∧ (∀ k, x.lt k = decide (n < k)) ∧
      (∀ k, x.ge k = decide (k ≤ n)) := by
  cases x with
  | infinite neg => cases h
  | nan => cases h
  | finite neg m q =>
    have hpos : (0 : Int) < (2 ^ (-q).toNat : Nat) := by positivity
    -- the number over the power of two that its scale is, on either side of the point
    have hval : (if neg then -(m : Int) else m) * (2 ^ q.toNat : Nat) =
          n * (2 ^ (-q).toNat : Nat) ∧
        (finite neg m q).isWhole = true ∧ (finite neg m q).cut = n := by
      by_cases hq : 0 ≤ q
      · rw [toInt?_of_nonneg hq, Option.some_inj] at h
        have hzero : (-q).toNat = 0 := by omega
        refine ⟨?_, by simp [isWhole, hq], ?_⟩
        · rw [← h, hzero]
          cases neg <;> simp
        · rw [← h, cut, if_pos hq]
          rfl
      · have hm : m % 2 ^ (-q).toNat = 0 := by
          by_contra hm
          rw [toInt?_of_mod_ne_zero hq hm] at h
          cases h
        rw [toInt?_of_mod_eq_zero hq hm, Option.some_inj] at h
        have hzero : q.toNat = 0 := by omega
        have hmul : ((m / 2 ^ (-q).toNat : Nat) : Int) * (2 ^ (-q).toNat : Nat) = m := by
          rw [← Int.natCast_mul, Nat.div_mul_cancel (Nat.dvd_of_mod_eq_zero hm)]
        refine ⟨?_, by simp [isWhole, twoPow_eq, hm], ?_⟩
        · rw [← h, hzero]
          cases neg
          · simpa using hmul.symm
          · simpa using hmul.symm
        · rw [← h, cut, if_neg hq]
          rfl
    obtain ⟨hval, hwhole, hcut⟩ := hval
    refine ⟨hwhole, hcut, fun k => ?_, fun k => ?_⟩
    · simp only [lt, twoPow_eq, hval, Int.mul_lt_mul_right hpos]
    · simp only [ge, twoPow_eq, hval, Int.mul_le_mul_right hpos]

/-- What is no integer has something after its point or is infinite. -/
theorem of_toInt?_eq_none {x : BinaryValue} (h : x.toInt? = none) :
    x.isWhole = false ∨ ∃ neg, x = .infinite neg := by
  cases x with
  | infinite neg => exact Or.inr ⟨neg, rfl⟩
  | nan => exact Or.inl rfl
  | finite neg m q =>
    left
    by_cases hq : 0 ≤ q
    · rw [toInt?_of_nonneg hq] at h
      cases h
    · have hm : m % 2 ^ (-q).toNat ≠ 0 := by
        intro hm
        rw [toInt?_of_mod_eq_zero hq hm] at h
        cases h
      simpa [isWhole, hq, twoPow_eq] using hm

end BinaryValue

namespace Value

/-- **A floating point number is converted** if it is an integer that
fits, and only then. -/
theorem wordOfDouble_eq (bits : Nat) :
    wordOfDouble bits = (intOfDouble bits).map (BitVec.ofInt 64) := by
  unfold wordOfDouble intOfDouble
  generalize Binary.double.decode bits = x
  cases h : x.toInt? with
  | none =>
    rw [Option.filter_none]
    rcases BinaryValue.of_toInt?_eq_none h with hwhole | ⟨neg, rfl⟩
    · simp [hwhole, Except.map]
    · -- an infinity is whole, but not within any bounds
      cases neg <;> rfl
  | some n =>
    obtain ⟨hwhole, hcut, hlt, hge⟩ := BinaryValue.words_of_toInt? h
    have htests : (!x.isWhole || x.lt (-twoPow 63) || x.ge (twoPow 63)) = !fitsSigned 64 n := by
      rw [hwhole, hlt, hge, Bool.eq_iff_iff, Bool.not_eq_true', ← Bool.not_eq_true, fitsSigned_iff]
      simp only [Bool.not_true, Bool.false_or, Bool.or_eq_true, decide_eq_true_eq]
      rw [twoPow_eq]
      omega
    simp only [htests, hcut]
    cases hfit : fitsSigned 64 n with
    | true => simp [Option.filter, hfit, Except.map]
    | false => simp [Option.filter, hfit, Except.map]

/-! ## Numbers of any kind -/

/-- **A value that a machine can hold**: an integer of a kind is one of the
words of this kind. -/
def Held (v : Value) : Prop := ∀ k n, v = .int k n → k.holds n = true

theorem held_int {k : IntKind} {n : Int} (h : k.holds n = true) : (int k n).Held := by
  rintro k n ⟨⟩
  exact h

variable {v : Value}

/-- What is read of a value that a machine can hold fits a word. -/
theorem fitsSigned_of_toInt64 (hheld : v.Held) {n : Int} (h : v.toInt64 = .ok n) :
    fitsSigned 64 n = true := by
  cases v with
  | int k m =>
    have hholds := hheld k m rfl
    by_cases hk : k = .uint ∨ k = .uint64
    · -- these two are tested
      rcases hk with rfl | rfl
      all_goals
        rw [toInt64] at h
        split at h
        · rename_i hfit
          cases h
          exact hfit
        · cases h
    · obtain ⟨huint, huint64⟩ := not_or.mp hk
      have hm : m = n := by
        cases k <;> first | exact Except.ok.inj h | contradiction
      rw [← hm]
      exact IntKind.fitsSigned_of_holds hholds huint huint64
  | float64 bits => exact (intOfDouble_eq_ok_iff.mp h).2
  | float32 bits => exact (intOfDouble_eq_ok_iff.mp h).2
  | number t =>
    rw [toInt64] at h
    split at h
    · rename_i m hm
      cases h
      exact (Option.filter_eq_some_iff.mp hm).2
    · cases h
  | _ => cases h

/-- The test on a word without a sign is the test on its number. -/
theorem toNat_ofInt_lt_iff {n : Int} (hn : 0 ≤ n ∧ n < (2 ^ 64 : Nat)) :
    (BitVec.ofInt 64 n).toNat = n.toNat ∧
      (twoPow 63 - 1 < n.toNat ↔ fitsSigned 64 n = false) := by
  constructor
  · rw [BitVec.toNat_ofInt, Int.emod_eq_of_lt hn.1 hn.2]
  · rw [← Bool.not_eq_true, fitsSigned_iff, twoPow_eq]
    omega

/-- **A number is read as the same integer** in a machine word as by its
value, and refused with the same error. -/
theorem toWord64_eq (hheld : v.Held) : v.toWord64 = v.toInt64.map (BitVec.ofInt 64) := by
  cases v with
  | int k m =>
    have hholds := hheld k m rfl
    cases k with
    | uint64 =>
      have hm := (IntKind.holds_iff rfl).mp hholds
      obtain ⟨hnat, htest⟩ := toNat_ofInt_lt_iff hm
      have htext : Text.ofNat m.toNat = Text.ofInt m := by
        obtain ⟨i, rfl⟩ := Int.eq_ofNat_of_zero_le hm.1
        rfl
      rw [toWord64, toInt64, hnat]
      cases hfit : fitsSigned 64 m with
      | true =>
        have hlow := mt htest.mp (by simp [hfit])
        rw [if_neg hlow, if_pos rfl]
        rfl
      | false =>
        rw [if_pos (htest.mpr hfit), if_neg (by simp), htext]
        rfl
    | uint =>
      obtain ⟨hnat, htest⟩ := toNat_ofInt_lt_iff ((IntKind.holds_iff rfl).mp hholds)
      rw [toWord64, toInt64, hnat]
      cases hfit : fitsSigned 64 m with
      | true =>
        have hlow := mt htest.mp (by simp [hfit])
        rw [if_pos (Nat.not_lt.mp hlow), if_pos rfl]
        rfl
      | false =>
        rw [if_neg (Nat.not_le.mpr (htest.mpr hfit)), if_neg (by simp)]
        rfl
    | _ => exact congrArg Except.ok (IntKind.widen_ofInt hholds)
  | float64 bits => exact wordOfDouble_eq bits
  | float32 bits => exact wordOfDouble_eq _
  | number t =>
    rw [toWord64, toInt64]
    cases t.toSigned? 64 <;> rfl
  | _ => rfl

/-- **So it is in every width.** -/
theorem toWord_eq (hheld : v.Held) (hpos : 0 < width) (hwidth : width ≤ 64) :
    v.toWord width = (v.toInt width).map (BitVec.ofInt width) := by
  unfold toWord toInt
  rw [toWord64_eq hheld]
  cases h : v.toInt64 with
  | error e => rfl
  | ok n =>
    have hn : (BitVec.ofInt 64 n).toInt = n :=
      toInt_ofInt_of_fitsSigned (by decide) (fitsSigned_of_toInt64 hheld h)
    have htest := signExtend_setWidth_eq_iff hpos hwidth (x := BitVec.ofInt 64 n)
    rw [hn] at htest
    by_cases hfit : fitsSigned width n = true
    · have hsame := htest.mpr hfit
      simp only [Except.map, bind, Except.bind, if_pos hsame, if_pos hfit]
      rw [setWidth_ofInt_eq hwidth]
    · have hother := mt htest.mp hfit
      simp only [Except.map, bind, Except.bind, if_neg hother, if_neg hfit, hn]

end Value

end WireModel
