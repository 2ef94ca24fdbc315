import Mathlib.Data.List.Forall2
import WireModel.Proofs.Decode.Word
import WireModel.Proofs.Number.Rational

/-!
# Integers — what is read is the number that was given

The exact value of a number is a rational (`Value.rational?`), given by the
kind the number came in: an integer by itself, a floating point number by
its pattern, a number that is kept as written by its text. Whatever
integer is read of a value is this number, in every width, and a byte
string that is read of a sequence holds the numbers of its elements, each
at its place. Numbers that are no integers of the width are refused.
-/

namespace WireModel

/-- The supported widths are those of words. -/
theorem width_bounds {width : Nat} (h : width ∈ [8, 16, 32, 64]) : 0 < width ∧ width ≤ 64 := by
  simp only [List.mem_cons, List.not_mem_nil, or_false] at h
  omega

namespace Value

/-- A value of one of the kinds of numbers. -/
def IsNumeric : Value → Prop
  | int _ _ | float64 _ | float32 _ | number _ => True
  | _ => False

/-- **The exact value** of a number, if it is one: an infinity is none, and
neither is what is called no number. -/
def rational? : Value → Option ℚ
  | int _ n => some n
  | float64 bits => Binary.double.rational? bits
  | float32 bits => Binary.single.rational? bits
  | number t => t.rational?
  | _ => none

/-- The elements of a sequence; those of a byte string are its bytes. -/
def elements? : Value → Option (List Value)
  | list vs => some vs
  | bytes bs => some (bs.map fun b => int .uint8 b.toNat)
  | _ => none

/-- Whether an integer is one of a width. -/
def InRange (width : Nat) (n : Int) : Prop := -2 ^ (width - 1) ≤ n ∧ n < 2 ^ (width - 1)

instance (width : Nat) (n : Int) : Decidable (InRange width n) :=
  inferInstanceAs (Decidable (_ ∧ _))

variable {v : Value} {n : Int} {width : Nat}

theorem fitsSigned_iff_inRange : fitsSigned width n = true ↔ InRange width n := by
  rw [fitsSigned_iff, InRange]
  push_cast
  rfl

/-- Only a number has an exact value. -/
theorem isNumeric_of_rational? {x : ℚ} (h : v.rational? = some x) : v.IsNumeric := by
  cases v with
  | int k n => trivial
  | float64 bits => trivial
  | float32 bits => trivial
  | number t => trivial
  | _ => cases h

/-- **The integer that is read is the exact value**, of whatever kind the
number is. -/
theorem rational?_of_toInt64 (h : v.toInt64 = .ok n) : v.rational? = some (n : ℚ) := by
  have hint := exactInt?_of_toInt64 h
  cases v with
  | int k m =>
    have hm : m = n := Option.some.inj hint
    rw [rational?, hm]
  | float64 bits =>
    have hpattern := BinaryValue.toInt?_eq_some_iff.mp hint
    rwa [Binary.rational?_decode] at hpattern
  | float32 bits =>
    have hpattern := BinaryValue.toInt?_eq_some_iff.mp hint
    rwa [Binary.rational?_decode] at hpattern
  | number t =>
    rw [toInt64] at h
    split at h
    · rename_i m hm
      cases h
      exact Text.rational?_of_toInteger? (Option.filter_eq_some_iff.mp hm).1
    · cases h
  | _ => cases h

/-- What is read in a width is what is read at all, if it fits. -/
theorem toInt_eq_ok_iff : v.toInt width = .ok n ↔ v.toInt64 = .ok n ∧ InRange width n := by
  rw [← fitsSigned_iff_inRange, toInt]
  cases v.toInt64 with
  | error e => simp [bind, Except.bind]
  | ok m =>
    by_cases hfit : fitsSigned width m = true
    · simp only [bind, Except.bind, if_pos hfit, Except.ok.injEq]
      exact ⟨fun h => ⟨h, h ▸ hfit⟩, fun h => h.1⟩
    · simp only [bind, Except.bind, if_neg hfit]
      refine iff_of_false (by simp) fun h => ?_
      obtain ⟨hm, hn⟩ := h
      rw [Except.ok.inj hm] at hfit
      exact hfit hn

/-- A byte is read of a number that is this byte. -/
theorem rational?_of_toByte? {b : UInt8} (h : v.toByte? = some b) :
    v.rational? = some (b.toNat : ℚ) := by
  rw [toByte?] at h
  split at h
  · rename_i m hm
    split at h
    · rename_i hrange
      have hb : b.toNat = m := by
        rw [← Option.some.inj h, Nat.toUInt8, UInt8.toNat_ofNat']
        omega
      rw [rational?_of_toInt64 hm, ← hb]
      rfl
    · cases h
  · cases h

/-- **Bytes are read in their order**, each of the element at its place. -/
theorem forall₂_of_toByteList {vs : List Value} :
    ∀ {pos : Nat} {bs : List UInt8}, toByteList pos vs = .ok bs →
      List.Forall₂ (fun e b => e.rational? = some (b.toNat : ℚ)) vs bs := by
  induction vs with
  | nil =>
    intro pos bs h
    cases h
    exact List.Forall₂.nil
  | cons v vs ih =>
    intro pos bs h
    rw [toByteList] at h
    split at h
    · rename_i b hb
      obtain ⟨rest, hrest, h⟩ : ∃ rest, toByteList (pos + 1) vs = .ok rest ∧ b :: rest = bs := by
        cases hrest : toByteList (pos + 1) vs with
        | error e => rw [hrest] at h; cases h
        | ok rest =>
          rw [hrest] at h
          exact ⟨rest, rfl, Except.ok.inj h⟩
      rw [← h]
      exact List.Forall₂.cons (rational?_of_toByte? hb) (ih hrest)
    · cases h

/-- **Reading an integer never gives a wrong number.** What is read in a
width is the exact value of a number and in the range of the width; what
has no exact value in the range is refused, be it no number, infinite,
with something after its point, or too large; the bytes that are read of a
sequence are the exact values of its elements; and the words that a
machine computes for the value are the same. -/
theorem toInt_exact (hwidth : width ∈ [8, 16, 32, 64]) (v : Value) :
    (∀ n, v.toInt width = .ok n →
      v.IsNumeric ∧ v.rational? = some (n : ℚ) ∧ InRange width n) ∧
    ((¬ ∃ n : Int, InRange width n ∧ v.rational? = some (n : ℚ)) →
      ∃ e, v.toInt width = .error e) ∧
    (∀ bs, v.toBytes = .ok bs → ∃ vs, v.elements? = some vs ∧
      List.Forall₂ (fun e b => e.IsNumeric ∧ e.rational? = some (b.toNat : ℚ)) vs bs) ∧
    (v.Held → v.toWord width = (v.toInt width).map (BitVec.ofInt width) ∧
      ∀ x, v.toWord width = .ok x → v.rational? = some (x.toInt : ℚ)) := by
  have hread : ∀ n, v.toInt width = .ok n →
      v.IsNumeric ∧ v.rational? = some (n : ℚ) ∧ InRange width n := by
    intro n h
    obtain ⟨hint, hrange⟩ := toInt_eq_ok_iff.mp h
    have hexact := rational?_of_toInt64 hint
    exact ⟨isNumeric_of_rational? hexact, hexact, hrange⟩
  refine ⟨hread, fun hnone => ?_, fun bs h => ?_, fun hheld => ?_⟩
  · cases h : v.toInt width with
    | error e => exact ⟨e, rfl⟩
    | ok n => exact absurd ⟨n, (hread n h).2.2, (hread n h).2.1⟩ hnone
  · cases v with
    | bytes given =>
      cases h
      refine ⟨_, rfl, ?_⟩
      rw [List.forall₂_map_left_iff, List.forall₂_same]
      intro b _
      exact ⟨trivial, by simp [rational?]⟩
    | list vs =>
      refine ⟨vs, rfl, (forall₂_of_toByteList h).imp ?_⟩
      intro e b hexact
      exact ⟨isNumeric_of_rational? hexact, hexact⟩
    | _ => cases h
  · have hbounds := width_bounds hwidth
    have hword := toWord_eq hheld hbounds.1 hbounds.2
    refine ⟨hword, fun x hx => ?_⟩
    rw [hword] at hx
    cases h : v.toInt width with
    | error e => rw [h] at hx; cases hx
    | ok n =>
      rw [h] at hx
      obtain ⟨-, hexact, hrange⟩ := hread n h
      rw [← Except.ok.inj hx, hexact,
        toInt_ofInt_of_fitsSigned hbounds.1 (fitsSigned_iff_inRange.mpr hrange)]

namespace Sample

/-- The floating point number two to the 63rd: the greatest signed word is
rounded to it. -/
def pastWords : Value := float64 0x43E0000000000000

theorem rational?_pastWords : pastWords.rational? = some (2 ^ 63) := by
  have hdecode : Binary.double.decode 0x43E0000000000000 = .finite false (2 ^ 52) 11 := by
    decide +kernel
  rw [pastWords, rational?, ← Binary.rational?_decode, hdecode, BinaryValue.rational?]
  norm_num

/-- It has no place among the signed words of 64 bits. -/
theorem pastWords_not_inRange : ¬ ∃ n : Int, InRange 64 n ∧ pastWords.rational? = some (n : ℚ) := by
  rintro ⟨n, hrange, hexact⟩
  rw [rational?_pastWords, Option.some_inj] at hexact
  have hn : n = 2 ^ 63 := by exact_mod_cast hexact.symm
  rw [InRange] at hrange
  omega

/-- A sequence with a byte in two kinds. -/
def mixedBytes : Value := list [int .uint8 7, number "200"]

/-- **The readings at work**: a number just past the words is refused, a
sequence of several kinds is read as its bytes, and the same holds of the
words of the least signed integer. -/
theorem toInt_exact_samples :
    (∃ e, pastWords.toInt 64 = .error e) ∧
    (∃ vs, mixedBytes.elements? = some vs ∧
      List.Forall₂ (fun e b => e.IsNumeric ∧ e.rational? = some (b.toNat : ℚ)) vs
        ([7, 200] : List UInt8)) ∧
    (int .int8 (-128)).rational? = some ((-128 : Int) : ℚ) ∧
    (int .int8 (-128)).toWord 8 = .ok (-128) := by
  have hwide : 64 ∈ [8, 16, 32, 64] := by decide
  have hnarrow : 8 ∈ [8, 16, 32, 64] := by decide
  have hread : (int .int8 (-128)).toInt 8 = .ok (-128) := by rfl
  have hheld : (int .int8 (-128)).Held := by
    rintro k n ⟨⟩
    decide
  refine ⟨(toInt_exact hwide pastWords).2.1 pastWords_not_inRange,
    (toInt_exact hwide mixedBytes).2.2.1 _ rfl, ((toInt_exact hnarrow _).1 _ hread).2.1, ?_⟩
  rw [((toInt_exact hnarrow _).2.2.2 hheld).1, hread]
  rfl

end Sample

end Value

end WireModel
