import WireModel.Decode.Scalar
import WireModel.Proofs.Number.Binary
import WireModel.Proofs.Number.Decimal

/-!
# Exact values — which integer a number is

`Value.exactInt?` is the integer that a value is, whatever machine kind
it came in: floating point numbers by their patterns, and numbers that
are kept as written by the decimal they write. Reading integers never
gives another one (`Value.exactInt?_of_toInt64`), and refuses one that
fits only if it is kept as written and not written as an integer
(`Value.toInt64_of_exactInt?`), as in `1e2`.
-/

namespace WireModel

/-- The decimal as an integer, if it is one. -/
def Decimal.toInt? (d : Decimal) : Option Int :=
  if 0 ≤ d.scale then some (d.coefficient * tenPow d.scale.toNat)
  else if d.coefficient % tenPow (-d.scale).toNat = 0 then
    some (d.coefficient / tenPow (-d.scale).toNat)
  else none

namespace Value

/-- **The integer a value is**, by its exact value. -/
def exactInt? : Value → Option Int
  | int _ n => some n
  | float64 bits => (Binary.double.decode bits).toInt?
  | float32 bits => (Binary.single.decode bits).toInt?
  | number t => (Decimal.ofText? t).bind Decimal.toInt?
  | _ => none

/-- A number that is kept as written, and not written as an integer of 64
bits: by a sign and digits alone. -/
def OddlyWritten (v : Value) : Prop := ∃ t, v = .number t ∧ t.toSigned? 64 = none

variable {v : Value} {n : Int}

theorem intOfDouble_eq_ok_iff {bits : Nat} :
    intOfDouble bits = .ok n ↔
      (Binary.double.decode bits).toInt? = some n ∧ fitsSigned 64 n = true := by
  rw [intOfDouble, ← Option.filter_eq_some_iff]
  cases (Binary.double.decode bits).toInt?.filter (fitsSigned 64) <;> simp

/-- **Reading an integer never gives another one.** -/
theorem exactInt?_of_toInt64 (h : v.toInt64 = .ok n) : v.exactInt? = some n := by
  cases v with
  | int k m =>
    have hm : m = n := by
      cases k with
      | uint | uint64 =>
        rw [toInt64] at h
        split at h
        · exact Except.ok.inj h
        · cases h
      | _ => exact Except.ok.inj h
    rw [exactInt?, hm]
  | float64 bits => exact (intOfDouble_eq_ok_iff.mp h).1
  | float32 bits =>
    have hwide := (intOfDouble_eq_ok_iff.mp h).1
    rwa [Binary.toInt?_widen] at hwide
  | number t =>
    rw [toInt64] at h
    split at h
    · rename_i m hm
      obtain rfl := Except.ok.inj h
      obtain ⟨hint, -⟩ := Option.filter_eq_some_iff.mp hm
      rw [exactInt?, Decimal.ofText?_of_toInteger? hint]
      simp [Decimal.toInt?, tenPow]
    · cases h
  | _ => cases h

/-- **An integer that fits is read**, unless it is oddly written. -/
theorem toInt64_of_exactInt? (h : v.exactInt? = some n) (hfit : fitsSigned 64 n = true)
    (hodd : ¬ v.OddlyWritten) : v.toInt64 = .ok n := by
  cases v with
  | int k m =>
    obtain rfl := Option.some.inj h
    cases k with
    | uint | uint64 => rw [toInt64, if_pos hfit]
    | _ => rfl
  | float64 bits => exact intOfDouble_eq_ok_iff.mpr ⟨h, hfit⟩
  | float32 bits =>
    refine intOfDouble_eq_ok_iff.mpr ⟨?_, hfit⟩
    rw [Binary.toInt?_widen]
    exact h
  | number t =>
    cases hs : t.toSigned? 64 with
    | none => exact absurd ⟨t, rfl, hs⟩ hodd
    | some m =>
      have hread : (number t).toInt64 = .ok m := by rw [toInt64, hs]
      -- the integer that is read is the one it is
      have hm := exactInt?_of_toInt64 hread
      rw [h] at hm
      rw [hread, Option.some.inj hm]
  | _ => cases h

/-- **What is refused as an element of a byte sequence** is no integer from
0 to 255, or oddly written. -/
theorem of_toByte?_eq_none (h : v.toByte? = none) :
    (∀ n, v.exactInt? = some n → ¬ (0 ≤ n ∧ n ≤ 255)) ∨ v.OddlyWritten := by
  refine or_iff_not_imp_right.mpr fun hodd n hn hbyte => ?_
  have hfit : fitsSigned 64 n = true := by
    have hpow : (twoPow (64 - 1) : Int) = 2 ^ 63 := rfl
    simp only [fitsSigned, hpow, Bool.and_eq_true, decide_eq_true_eq]
    omega
  rw [toByte?, toInt64_of_exactInt? hn hfit hodd] at h
  simp [hbyte] at h

end Value

end WireModel
