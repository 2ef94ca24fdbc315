import Mathlib.Data.Nat.Cast.Field
import Mathlib.Data.Rat.Lemmas
import Mathlib.Tactic.FieldSimp
import Mathlib.Tactic.Ring
import WireModel.Proofs.Number.Binary
import WireModel.Proofs.Number.Decimal

/-!
# Numbers as rationals — which number a pattern or a text is

What is said of numbers elsewhere is said by whole numbers: a significand
and a scale, digits and places. Here the same numbers are given as
rationals by the formulas one finds in textbooks, a pattern by its sign,
its biased exponent and its fraction (`Binary.rational?`), and a text by
the places of its digits (`Text.rational?`). The two agree
(`Binary.rational?_decode`, `Text.rational?_of_toInteger?`), and a number
is read as an integer if and only if it is one
(`BinaryValue.toInt?_eq_some_iff`).
-/

namespace WireModel

/-! ## Patterns -/

/-- The number a pattern stands for, by the formula of the interchange
formats; `none` for the infinities and for what is no number. -/
def Binary.rational? (f : Binary) (bits : Nat) : Option ℚ :=
  let sign : ℚ := if bits.testBit (f.fraction + f.exponent) then -1 else 1
  let exponent : Nat := bits / 2 ^ f.fraction % 2 ^ f.exponent
  let bias : Int := 2 ^ (f.exponent - 1) - 1
  let fraction : ℚ := (bits % 2 ^ f.fraction : Nat) / 2 ^ f.fraction
  if exponent = 2 ^ f.exponent - 1 then none
  else if exponent = 0 then some (sign * 2 ^ (1 - bias) * fraction)
  else some (sign * 2 ^ (exponent - bias) * (1 + fraction))

namespace BinaryValue

/-- The number a value is, if it is one. -/
def rational? : BinaryValue → Option ℚ
  | finite neg m q => some ((if neg then -1 else 1) * m * 2 ^ q)
  | infinite _ | nan => none

/-- A number that is a multiple of another but for its sign is a multiple of
it. -/
theorem dvd_of_signed_eq {neg : Bool} {m k : Nat} {n : Int}
    (h : ((if neg then -1 else 1) * m : ℚ) = n * k) : k ∣ m := by
  have hint : (if neg then -1 else 1) * (m : Int) = n * k := by
    have hrat : (((if neg then -1 else 1) * (m : Int) : Int) : ℚ) = ((n * k : Int) : ℚ) := by
      rw [Int.cast_mul, Int.cast_mul, Int.cast_natCast, Int.cast_natCast, ← h]
      cases neg <;> simp
    exact Int.cast_inj.mp hrat
  have hdvd : (k : Int) ∣ (if neg then -1 else 1) * (m : Int) := ⟨n, by rw [hint, mul_comm]⟩
  refine Int.natCast_dvd_natCast.mp ?_
  cases neg with
  | false => simpa using hdvd
  | true => simpa using hdvd

/-- **A number is read as an integer** if and only if it is one. -/
theorem toInt?_eq_some_iff {x : BinaryValue} {n : Int} :
    x.toInt? = some n ↔ x.rational? = some (n : ℚ) := by
  cases x with
  | infinite neg => simp [toInt?, rational?]
  | nan => simp [toInt?, rational?]
  | finite neg m q =>
    have hcast : ∀ k : Nat, some (if neg then -(k : Int) else k) = some n ↔
        ((if neg then -1 else 1) * k : ℚ) = n := by
      intro k
      rw [Option.some_inj, ← Int.cast_inj (α := ℚ)]
      cases neg <;> simp
    unfold rational?
    rw [Option.some_inj]
    by_cases hq : 0 ≤ q
    · have hscale : (2 : ℚ) ^ q = 2 ^ q.toNat := by
        rw [← zpow_natCast, Int.toNat_of_nonneg hq]
      rw [toInt?_of_nonneg hq, hcast, hscale, mul_assoc]
      push_cast
      rfl
    · have hne : ((2 ^ (-q).toNat : Nat) : ℚ) ≠ 0 := by positivity
      have hscale : (2 : ℚ) ^ q = ((2 ^ (-q).toNat : Nat) : ℚ)⁻¹ := by
        push_cast
        rw [← zpow_natCast, Int.toNat_of_nonneg (by omega), zpow_neg, inv_inv]
      rw [hscale, ← div_eq_mul_inv]
      by_cases hm : m % 2 ^ (-q).toNat = 0
      · have hdvd : 2 ^ (-q).toNat ∣ m := Nat.dvd_of_mod_eq_zero hm
        rw [toInt?_of_mod_eq_zero hq hm, hcast, Nat.cast_div hdvd hne, mul_div_assoc]
      · rw [toInt?_of_mod_ne_zero hq hm, div_eq_iff hne]
        exact iff_of_false (by simp) fun heq => hm (Nat.mod_eq_zero_of_dvd (dvd_of_signed_eq heq))

end BinaryValue

namespace Binary

variable {f : Binary}

/-- **The formula agrees** with reading a pattern field by field. -/
theorem rational?_decode (bits : Nat) : (f.decode bits).rational? = f.rational? bits := by
  have hsign : (bits / f.signWeight % 2 == 1) = bits.testBit (f.fraction + f.exponent) := by
    rw [signWeight, twoPow_eq, Nat.testBit_eq_decide_div_mod_eq]
    rfl
  have hbias : (twoPow (f.exponent - 1) : Int) = 2 ^ (f.exponent - 1) := by
    rw [twoPow_eq]
    push_cast
    rfl
  -- the significand is a whole number, so its scale is lower by the places of the fraction
  have hscale : ∀ {q e : Int}, q = e - f.fraction → (2 : ℚ) ^ q = 2 ^ e / 2 ^ f.fraction := by
    rintro q e rfl
    rw [zpow_sub₀ two_ne_zero, zpow_natCast]
  unfold decode rational?
  simp only [hsign, special, twoPow_eq]
  split
  · split <;> rfl
  · split
    · simp only [BinaryValue.rational?, minScale, hbias]
      rw [hscale (e := 1 - (2 ^ (f.exponent - 1) - 1)) (by omega)]
      congr 1
      ring
    · simp only [BinaryValue.rational?, minScale, hbias]
      generalize bits / 2 ^ f.fraction % 2 ^ f.exponent = field
      rw [hscale (e := field - (2 ^ (f.exponent - 1) - 1)) (by omega)]
      congr 1
      push_cast
      field_simp

end Binary

/-! ## Texts -/

namespace Text

/-- The number that digits write, each by its place from the end. -/
def placeValue : Text → Nat
  | [] => 0
  | b :: bs => (b.toNat - '0'.toNat) * 10 ^ bs.length + placeValue bs

/-- The number a text writes: a sign, digits with at most one point among
them, and an exponent of ten. -/
def rational? (t : Text) : Option ℚ := do
  let (negative, body) := t.takeSign
  let (mantissa, exponent) := Decimal.cutExponent body
  let (whole, places) := (cut? '.'.toUInt8 mantissa).getD (mantissa, [])
  let scale ← match exponent with
    | none => some 0
    | some e => e.toInteger?
  if (whole ++ places).isEmpty || !(whole ++ places).all isDigit then none
  else
    let magnitude : ℚ := placeValue whole + placeValue places / 10 ^ places.length
    some ((if negative then -1 else 1) * magnitude * 10 ^ scale)

/-- Digits have the same value from either end. -/
theorem digitsValue_eq_placeValue (t : Text) : digitsValue t = placeValue t := by
  induction t with
  | nil => rfl
  | cons b t ih =>
    have hsplit := digitsValue_append [b] t
    have hone : digitsValue [b] = b.toNat - '0'.toNat := by
      simp [digitsValue]
    rw [List.singleton_append, ih, hone] at hsplit
    rw [hsplit, placeValue]

/-- **An integer is read as the number that its text writes.** -/
theorem rational?_of_toInteger? {t : Text} {n : Int} (h : t.toInteger? = some n) :
    t.rational? = some (n : ℚ) := by
  have hparts : (t.takeSign.2 ≠ [] ∧ ∀ b ∈ t.takeSign.2, isDigit b = true) ∧
      (if t.takeSign.1 then -(digitsValue t.takeSign.2 : Int)
        else digitsValue t.takeSign.2) = n := by
    simpa [toInteger?, Option.ite_none_left_eq_some] using h
  obtain ⟨⟨hne, hdigits⟩, hn⟩ := hparts
  -- among digits there is neither a mark of an exponent nor a point
  have hexp : Decimal.cutExponent t.takeSign.2 = (t.takeSign.2, none) := by
    refine Decimal.cutExponent_eq fun b hb => ?_
    have hb := hdigits b hb
    constructor
    · rintro rfl
      exact absurd hb (by decide)
    · rintro rfl
      exact absurd hb (by decide)
  have hcut : cut? '.'.toUInt8 t.takeSign.2 = none := by
    refine cut?_eq_none_iff.mpr fun hb => ?_
    exact absurd (hdigits _ hb) (by decide)
  have hall : t.takeSign.2.all isDigit = true := List.all_eq_true.mpr hdigits
  unfold rational?
  simp only [hexp, hcut, Option.getD_none, Option.bind_eq_bind, Option.bind_some,
    List.append_nil, hall, List.isEmpty_eq_false_iff.mpr hne, Bool.not_true, Bool.or_self]
  rw [← hn, digitsValue_eq_placeValue]
  cases t.takeSign.1 <;> simp [placeValue]

end Text

end WireModel
