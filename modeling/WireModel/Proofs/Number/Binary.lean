import Mathlib.Data.Nat.Log
import Mathlib.Tactic.Positivity
import WireModel.Number.Binary

/-!
# Binary numbers — what a format can hold, it holds exactly

A number with no more significant bits than a format has is not rounded
(`Binary.ofRatio?_exact`), and its pattern is decoded to the same number,
with its significand moved up to the leading bit (`Binary.decode_normal`).
So a number of the 32 bit format keeps its value when it is widened
(`Binary.toInt?_widen`).
-/

namespace WireModel

theorem twoPow_eq (n : Nat) : twoPow n = 2 ^ n := rfl

namespace BinaryValue

variable {neg : Bool} {m : Nat} {q : Int}

/-! The three ways a number is an integer or not: it has no bits below the
point, or only zeros there, or others. -/

theorem toInt?_of_nonneg (hq : 0 ≤ q) :
    (finite neg m q).toInt? = some (if neg then -((m * 2 ^ q.toNat : Nat) : Int)
      else (m * 2 ^ q.toNat : Nat)) := by
  rw [toInt?, if_pos hq]
  rfl

theorem toInt?_of_mod_eq_zero (hq : ¬ 0 ≤ q) (hm : m % 2 ^ (-q).toNat = 0) :
    (finite neg m q).toInt? = some (if neg then -((m / 2 ^ (-q).toNat : Nat) : Int)
      else (m / 2 ^ (-q).toNat : Nat)) := by
  have hm' : m % twoPow (-q).toNat = 0 := hm
  rw [toInt?, if_neg hq, if_pos hm']
  rfl

theorem toInt?_of_mod_ne_zero (hq : ¬ 0 ≤ q) (hm : m % 2 ^ (-q).toNat ≠ 0) :
    (finite neg m q).toInt? = none := by
  have hm' : m % twoPow (-q).toNat ≠ 0 := hm
  rw [toInt?, if_neg hq, if_neg hm']
  rfl

/-- Both zeros are the integer zero. -/
theorem toInt?_zero : (finite neg 0 q).toInt? = some 0 := by
  by_cases hq : 0 ≤ q
  · rw [toInt?_of_nonneg hq, Nat.zero_mul]
    cases neg <;> rfl
  · rw [toInt?_of_mod_eq_zero hq (Nat.zero_mod _), Nat.zero_div]
    cases neg <;> rfl

/-- **Moving the significand up** and the scale down by as much does not
change which integer a number is, if it is one. -/
theorem toInt?_shift (k : Nat) :
    (finite neg (m * 2 ^ k) (q - k)).toInt? = (finite neg m q).toInt? := by
  have hpos : ∀ j : Nat, 0 < 2 ^ j := fun j => Nat.pow_pos (by omega)
  by_cases hq : 0 ≤ q
  · by_cases hqk : 0 ≤ q - k
    · have hexp : q.toNat = k + (q - k).toNat := by omega
      rw [toInt?_of_nonneg hq, toInt?_of_nonneg hqk, hexp, Nat.pow_add, Nat.mul_assoc]
    · -- the bits that move below the point are those that moved up
      have hexp : k = q.toNat + (-(q - k)).toNat := by omega
      have hval : m * 2 ^ k = m * 2 ^ q.toNat * 2 ^ (-(q - k)).toNat := by
        conv_lhs => rw [hexp]
        rw [Nat.pow_add, Nat.mul_assoc]
      have hmod : m * 2 ^ k % 2 ^ (-(q - k)).toNat = 0 := by
        rw [hval]
        exact Nat.mul_mod_left _ _
      have hdiv : m * 2 ^ k / 2 ^ (-(q - k)).toNat = m * 2 ^ q.toNat := by
        rw [hval]
        exact Nat.mul_div_cancel _ (hpos _)
      rw [toInt?_of_nonneg hq, toInt?_of_mod_eq_zero hqk hmod, hdiv]
  · have hqk : ¬ 0 ≤ q - k := by omega
    have hexp : (-(q - k)).toNat = (-q).toNat + k := by omega
    have hmod : m * 2 ^ k % 2 ^ (-(q - k)).toNat = 0 ↔ m % 2 ^ (-q).toNat = 0 := by
      rw [hexp, Nat.pow_add, Nat.mul_mod_mul_right, Nat.mul_eq_zero]
      exact or_iff_left (Nat.ne_of_gt (hpos k))
    have hdiv : m * 2 ^ k / 2 ^ (-(q - k)).toNat = m / 2 ^ (-q).toNat := by
      rw [hexp, Nat.pow_add]
      exact Nat.mul_div_mul_right _ _ (hpos k)
    by_cases hm : m % 2 ^ (-q).toNat = 0
    · rw [toInt?_of_mod_eq_zero hq hm, toInt?_of_mod_eq_zero hqk (hmod.mpr hm), hdiv]
    · rw [toInt?_of_mod_ne_zero hq hm, toInt?_of_mod_ne_zero hqk (mt hmod.mp hm)]

end BinaryValue

namespace Binary

variable {f : Binary} {m : Nat} {q : Int}

/-- A quotient without a remainder is not rounded. -/
theorem roundDiv_mul (k : Nat) {d : Nat} (hd : 0 < d) : roundDiv (k * d) d = k := by
  have hdiv : k * d / d = k := Nat.mul_div_cancel k hd
  have hmod : k * d % d = 0 := Nat.mul_mod_left k d
  simp only [roundDiv, hdiv, hmod]
  rw [if_pos (by omega)]

/-- The leading bit of a number that is scaled by a power of two. -/
theorem floorLog2_eq (hm : 0 < m) (q : Int) :
    floorLog2 (m * 2 ^ q.toNat) (2 ^ (-q).toNat) = m.log2 + q := by
  have hnum : (m * 2 ^ q.toNat).log2 = m.log2 + q.toNat := by
    rw [Nat.log2_eq_log_two, Nat.log2_eq_log_two]
    induction q.toNat with
    | zero => simp
    | succ n ih =>
      have hne : m * 2 ^ n ≠ 0 := by positivity
      rw [Nat.pow_succ, ← Nat.mul_assoc, Nat.log_mul_base (by omega) hne, ih]
      omega
  have hden : (2 ^ (-q).toNat).log2 = (-q).toNat := Nat.log2_two_pow
  have hexp : ((m.log2 + q.toNat : Nat) : Int) - ((-q).toNat : Nat) = m.log2 + q := by omega
  have hle : 2 ^ m.log2 ≤ m := Nat.log2_self_le (by omega)
  simp only [floorLog2, hnum, hden, hexp, twoPow_eq]
  rw [if_neg ?_]
  -- both sides are at most two powers of two apart, which cancel
  rw [Nat.not_lt]
  calc 2 ^ (-q).toNat * 2 ^ (m.log2 + q).toNat
      = 2 ^ ((-q).toNat + (m.log2 + q).toNat) := (Nat.pow_add ..).symm
    _ = 2 ^ (m.log2 + (q.toNat + (-(m.log2 + q)).toNat)) := by congr 1; omega
    _ = 2 ^ m.log2 * (2 ^ q.toNat * 2 ^ (-(m.log2 + q)).toNat) := by
      rw [Nat.pow_add, Nat.pow_add]
    _ ≤ m * (2 ^ q.toNat * 2 ^ (-(m.log2 + q)).toNat) := Nat.mul_le_mul_right _ hle
    _ = m * 2 ^ q.toNat * 2 ^ (-(m.log2 + q)).toNat := (Nat.mul_assoc ..).symm

/-- **A number with few enough significant bits is not rounded**, if it is
neither too small nor too large for the format. -/
theorem ofRatio?_exact (neg : Bool) (hm : 0 < m) (hbits : m.log2 ≤ f.fraction)
    (hlow : f.minScale ≤ m.log2 + q - f.fraction)
    (hhigh : (m.log2 + q - f.fraction - f.minScale).toNat + 1 < f.special) :
    f.ofRatio? neg (m * 2 ^ q.toNat) (2 ^ (-q).toNat) =
      some (f.signBits neg + ((m.log2 + q - f.fraction - f.minScale).toNat * 2 ^ f.fraction +
        m * 2 ^ (f.fraction - m.log2))) := by
  set s : Int := m.log2 + q - f.fraction with hs
  have hne : m * 2 ^ q.toNat ≠ 0 := by positivity
  have hmax : max f.minScale (floorLog2 (m * 2 ^ q.toNat) (2 ^ (-q).toNat) - f.fraction) = s := by
    rw [floorLog2_eq hm]
    omega
  have hround : roundDiv (m * 2 ^ q.toNat * 2 ^ (-s).toNat) (2 ^ (-q).toNat * 2 ^ s.toNat) =
      m * 2 ^ (f.fraction - m.log2) := by
    have hnum : m * 2 ^ q.toNat * 2 ^ (-s).toNat =
        m * 2 ^ (f.fraction - m.log2) * (2 ^ (-q).toNat * 2 ^ s.toNat) := by
      rw [Nat.mul_assoc, Nat.mul_assoc, ← Nat.pow_add, ← Nat.pow_add, ← Nat.pow_add]
      congr 2
      omega
    rw [hnum]
    exact roundDiv_mul _ (by positivity)
  have hlt : m * 2 ^ (f.fraction - m.log2) < 2 * 2 ^ f.fraction := by
    calc m * 2 ^ (f.fraction - m.log2)
        < 2 ^ (m.log2 + 1) * 2 ^ (f.fraction - m.log2) :=
          Nat.mul_lt_mul_of_pos_right Nat.lt_log2_self (by positivity)
      _ = 2 * 2 ^ f.fraction := by
          rw [← Nat.pow_add, ← Nat.pow_succ']
          congr 1
          omega
  have hfits : ¬ f.special * 2 ^ f.fraction ≤
      (s - f.minScale).toNat * 2 ^ f.fraction + m * 2 ^ (f.fraction - m.log2) := by
    have hle : ((s - f.minScale).toNat + 2) * 2 ^ f.fraction ≤ f.special * 2 ^ f.fraction :=
      Nat.mul_le_mul_right _ hhigh
    rw [Nat.add_mul] at hle
    omega
  simp only [ofRatio?, twoPow_eq, if_neg hne, hmax, hround, if_neg hfits]

/-- **The pattern of a number with a leading bit** is decoded to it. -/
theorem decode_normal (neg : Bool) (scale : Nat) {frac : Nat} (hf : frac < 2 ^ f.fraction)
    (hs : scale + 1 < f.special) :
    f.decode (f.signBits neg + (scale * 2 ^ f.fraction + (2 ^ f.fraction + frac))) =
      .finite neg (2 ^ f.fraction + frac) (f.minScale + scale) := by
  have hspecial : f.special < 2 ^ f.exponent := by
    have := Nat.pow_pos (n := f.exponent) (show 0 < 2 by omega)
    simp only [special, twoPow_eq]
    omega
  have hpos : 0 < 2 ^ f.fraction := by positivity
  set low := scale * 2 ^ f.fraction + (2 ^ f.fraction + frac) with hlow
  have hlow' : low = frac + (scale + 1) * 2 ^ f.fraction := by
    rw [hlow, Nat.add_mul]
    omega
  have hlt : low < 2 ^ (f.fraction + f.exponent) := by
    have hle : (scale + 2) * 2 ^ f.fraction ≤ 2 ^ f.exponent * 2 ^ f.fraction :=
      Nat.mul_le_mul_right _ (by omega)
    rw [hlow', Nat.add_comm f.fraction, Nat.pow_add]
    rw [Nat.add_mul] at hle ⊢
    omega
  -- the sign bit stands above both fields
  have hsign : f.signBits neg = (if neg then 1 else 0) * 2 ^ (f.fraction + f.exponent) := by
    cases neg <;> simp [signBits, signWeight, twoPow_eq]
  have hmod : (f.signBits neg + low) % 2 ^ f.fraction = frac := by
    rw [hsign, hlow', Nat.pow_add, Nat.mul_comm (2 ^ f.fraction), ← Nat.mul_assoc,
      Nat.add_comm, Nat.add_assoc, ← Nat.add_mul, Nat.add_mul_mod_self_right, Nat.mod_eq_of_lt hf]
  have hexp : (f.signBits neg + low) / 2 ^ f.fraction % 2 ^ f.exponent = scale + 1 := by
    rw [hsign, hlow', Nat.pow_add, Nat.mul_comm (2 ^ f.fraction), ← Nat.mul_assoc,
      Nat.add_comm, Nat.add_assoc, ← Nat.add_mul, Nat.add_mul_div_right _ _ hpos,
      Nat.div_eq_of_lt hf, Nat.zero_add, Nat.add_mul_mod_self_right, Nat.mod_eq_of_lt (by omega)]
  have hneg : (f.signBits neg + low) / f.signWeight % 2 = if neg then 1 else 0 := by
    rw [hsign, signWeight, twoPow_eq, Nat.add_comm, Nat.add_mul_div_right _ _ (by positivity),
      Nat.div_eq_of_lt hlt]
    cases neg <;> rfl
  simp only [decode, twoPow_eq, hmod, hexp, hneg]
  rw [if_neg (by omega), if_neg (by omega)]
  have hscale : f.minScale + (((scale + 1 : Nat) : Int) - 1) = f.minScale + scale := by omega
  rw [hscale]
  cases neg <;> rfl

/-- A pattern with the largest exponent field is no integer. -/
theorem toInt?_of_special {bits : Nat}
    (h : bits / twoPow f.fraction % twoPow f.exponent = f.special) :
    (f.decode bits).toInt? = none := by
  rw [decode, if_pos h]
  split <;> rfl

/-- What the numbers of the 32 bit format are. -/
theorem bounds_of_decode_single {bits : Nat} {neg : Bool}
    (h : single.decode bits = .finite neg m q) : m < 2 ^ 24 ∧ -149 ≤ q ∧ q ≤ 104 := by
  have hunit : twoPow single.fraction = 2 ^ 23 := rfl
  have hfrac : bits % twoPow single.fraction < 2 ^ 23 := Nat.mod_lt _ (by omega)
  have hexp : bits / twoPow single.fraction % twoPow single.exponent < 2 ^ 8 :=
    Nat.mod_lt _ (by decide)
  have hspecial : single.special = 255 := by decide
  have hmin : single.minScale = -149 := by decide
  rw [decode] at h
  split at h
  · split at h <;> cases h
  · split at h
    · cases h
      omega
    · cases h
      omega

/-- **A number of the 32 bit format keeps its value in the 64 bit format.** -/
theorem toInt?_widen (bits : Nat) :
    (double.decode (single.widen double bits)).toInt? = (single.decode bits).toInt? := by
  have hspecial : double.special = 2047 := by decide
  have hmin : double.minScale = -1074 := by decide
  cases hdec : single.decode bits with
  | finite neg m q =>
    obtain ⟨hm, hlow, hhigh⟩ := bounds_of_decode_single hdec
    simp only [widen, hdec, twoPow_eq]
    rcases Nat.eq_zero_or_pos m with rfl | hpos
    · have hzero : double.decode (double.signBits neg) = .finite neg 0 (-1074) := by
        cases neg <;> decide
      simp only [ofRatio?, Nat.zero_mul, if_true, Option.getD_some, hzero, BinaryValue.toInt?_zero]
    · have hbits : m.log2 ≤ 23 := by
        have := (Nat.log2_lt (by omega)).mpr hm
        omega
      have hfrac : double.fraction = 52 := rfl
      have hexact := ofRatio?_exact (f := double) (q := q) neg hpos (by omega) (by omega)
        (by omega)
      -- the significand with its leading bit, and the fraction field below that
      have hsig : m * 2 ^ (52 - m.log2) = 2 ^ 52 + (m * 2 ^ (52 - m.log2) - 2 ^ 52) := by
        have hle : 2 ^ m.log2 * 2 ^ (52 - m.log2) ≤ m * 2 ^ (52 - m.log2) :=
          Nat.mul_le_mul_right _ (Nat.log2_self_le (by omega))
        rw [← Nat.pow_add, show m.log2 + (52 - m.log2) = 52 by omega] at hle
        omega
      have hlt : m * 2 ^ (52 - m.log2) - 2 ^ 52 < 2 ^ 52 := by
        have hlt : m * 2 ^ (52 - m.log2) < 2 ^ (m.log2 + 1) * 2 ^ (52 - m.log2) :=
          Nat.mul_lt_mul_of_pos_right Nat.lt_log2_self (by positivity)
        rw [← Nat.pow_add, show m.log2 + 1 + (52 - m.log2) = 53 by omega] at hlt
        omega
      have hnormal := decode_normal (f := double) neg
        (m.log2 + q - double.fraction - double.minScale).toNat hlt (by omega)
      rw [hexact, Option.getD_some, hfrac]
      rw [hfrac, ← hsig] at hnormal
      rw [hnormal]
      have hscale : double.minScale + ((m.log2 + q - (52 : Nat) - double.minScale).toNat : Int) =
          q - (52 - m.log2 : Nat) := by omega
      rw [hscale]
      exact BinaryValue.toInt?_shift _
  | infinite neg =>
    simp only [widen, hdec]
    have hinf : double.decode (double.infinity neg) = .infinite neg := by
      cases neg <;> decide
    rw [hinf]
  | nan =>
    have hnan : (single.decode bits).toInt? = none := by rw [hdec]; rfl
    rw [← hdec, hnan]
    -- the exponent field says that this is no number, whatever the fraction
    have hfraction : ∀ {neg : Bool} {frac : Nat}, frac < 2 ^ 52 →
        (double.infinity neg + frac) / twoPow double.fraction % twoPow double.exponent =
          double.special := by
      intro neg frac hfrac
      have hsign : double.signBits neg = 0 ∨ double.signBits neg = 2 ^ 63 := by
        cases neg
        · exact Or.inl rfl
        · exact Or.inr rfl
      have hunit : twoPow double.fraction = 2 ^ 52 := rfl
      have hfield : twoPow double.exponent = 2 ^ 11 := rfl
      rw [infinity, hunit, hfield, hspecial]
      omega
    rw [widen, hdec]
    refine toInt?_of_special (hfraction ?_)
    have hfrac : bits % twoPow single.fraction < 2 ^ 23 := Nat.mod_lt _ (by decide)
    have hup : twoPow (double.fraction - single.fraction) = 2 ^ 29 := rfl
    have hquiet : twoPow (double.fraction - 1) = 2 ^ 51 := rfl
    rw [hup, hquiet]
    split <;> omega

end Binary

end WireModel
