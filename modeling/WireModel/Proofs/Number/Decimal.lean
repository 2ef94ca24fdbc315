import Mathlib.Data.List.TakeWhile
import Mathlib.Algebra.Order.Ring.Int
import WireModel.Number.Decimal
import WireModel.Proofs.Text.Cut

/-!
# Numbers as texts — what is printed is read back

Integers of any size and decimals go through their texts. An integer is
read back as it was (`Text.toInteger?_ofInt`). A decimal is printed in
full and without trailing zeros, so what is read back may have another
coefficient and scale, but it is the same number
(`Decimal.ofText?_toText`).
-/

namespace WireModel

/-! ## Digits -/

namespace Text

/-- A digit as a byte. -/
theorem isDigit_toUInt8 {c : Char} (h : c.isDigit = true) :
    isDigit c.toUInt8 = true ∧ c.toUInt8.toNat = c.toNat := by
  have hc : 48 ≤ c.toNat ∧ c.toNat ≤ 57 := by
    exact Char.isDigit_iff_toNat.mp h
  have hnat : c.toUInt8.toNat = c.toNat := by
    have : c.toUInt8.toNat = c.toNat % 256 := rfl
    omega
  refine ⟨?_, hnat⟩
  have h0 : ('0'.toUInt8 : UInt8).toNat = 48 := by decide
  have h9 : ('9'.toUInt8 : UInt8).toNat = 57 := by decide
  simp only [isDigit, Bool.and_eq_true, decide_eq_true_eq, UInt8.le_iff_toNat_le, h0, h9, hnat]
  exact hc

/-- The text of a number holds digits only. -/
theorem isDigit_of_mem_ofNat {n : Nat} {b : UInt8} (h : b ∈ ofNat n) : isDigit b = true := by
  obtain ⟨c, hc, rfl⟩ := List.mem_map.mp h
  exact (isDigit_toUInt8 (Nat.isDigit_of_mem_toDigits (by omega) (by omega) hc)).1

theorem ofNat_ne_nil {n : Nat} : ofNat n ≠ [] := by
  simp [ofNat, Nat.toDigits_ne_nil]

theorem digitsValue_ofNat (n : Nat) : digitsValue (ofNat n) = n := by
  have hfold : ∀ (cs : List Char) (k : Nat), (∀ c ∈ cs, c.isDigit = true) →
      (cs.map Char.toUInt8).foldl (fun n b => 10 * n + (b.toNat - '0'.toNat)) k =
        Nat.ofDigitChars 10 cs k := by
    intro cs
    induction cs with
    | nil => exact fun k _ => rfl
    | cons c cs ih =>
      intro k hcs
      rw [List.map_cons, List.foldl_cons, Nat.ofDigitChars_cons,
        (isDigit_toUInt8 (hcs c (by simp))).2, ih _ fun d hd => hcs d (by simp [hd])]
  have hdigits : ∀ c ∈ Nat.toDigits 10 n, c.isDigit = true := fun c hc =>
    Nat.isDigit_of_mem_toDigits (by omega) (by omega) hc
  rw [digitsValue, ofNat, hfold _ _ hdigits, Nat.ofDigitChars_ten_toDigits]

/-- Digits after digits. -/
theorem digitsValue_append (s t : Text) :
    digitsValue (s ++ t) = digitsValue s * 10 ^ t.length + digitsValue t := by
  have hfold : ∀ (t : Text) (k : Nat),
      t.foldl (fun n b => 10 * n + (b.toNat - '0'.toNat)) k =
        k * 10 ^ t.length + digitsValue t := by
    intro t
    induction t with
    | nil => simp [digitsValue]
    | cons b t ih =>
      intro k
      rw [digitsValue, List.foldl_cons, List.foldl_cons, ih, ih (10 * 0 + _), List.length_cons,
        Nat.pow_succ, Nat.mul_zero, Nat.zero_add, Nat.add_mul, Nat.mul_comm 10 k, Nat.mul_assoc,
        Nat.mul_comm 10, Nat.add_assoc]
  rw [digitsValue, List.foldl_append, hfold t]
  rfl

theorem digitsValue_replicate_zero (n : Nat) :
    digitsValue (List.replicate n '0'.toUInt8) = 0 := by
  induction n with
  | zero => rfl
  | succ n ih =>
    have happ := digitsValue_append ['0'.toUInt8] (List.replicate n '0'.toUInt8)
    rw [ih, List.singleton_append, ← List.replicate_succ] at happ
    rw [happ, show digitsValue ['0'.toUInt8] = 0 from by decide, Nat.zero_mul]

/-! ## Integers -/

/-- Digits are read as the number they write. -/
theorem toInteger?_digits {t : Text} (hne : t ≠ []) (hd : ∀ b ∈ t, isDigit b = true) :
    toInteger? t = some (digitsValue t : Int) := by
  obtain ⟨b, t, rfl⟩ := List.exists_cons_of_ne_nil hne
  have hb := hd b (by simp)
  have hsign : takeSign (b :: t) = (false, b :: t) := by
    have hneg : b ≠ '-'.toUInt8 := by
      rintro rfl
      exact absurd hb (by decide)
    have hpos : b ≠ '+'.toUInt8 := by
      rintro rfl
      exact absurd hb (by decide)
    simp [takeSign, hneg, hpos]
  have hall : (b :: t).all isDigit = true := List.all_eq_true.mpr hd
  simp [toInteger?, hsign, hall]

/-- And with a sign as its negative. -/
theorem toInteger?_neg_digits {t : Text} (hne : t ≠ []) (hd : ∀ b ∈ t, isDigit b = true) :
    toInteger? ('-'.toUInt8 :: t) = some (-(digitsValue t : Int)) := by
  have hsign : takeSign ('-'.toUInt8 :: t) = (true, t) := by simp [takeSign]
  have hall : t.all isDigit = true := List.all_eq_true.mpr hd
  simp [toInteger?, hsign, hall, hne]

/-- **An integer is read back from its text.** -/
theorem toInteger?_ofInt (n : Int) : toInteger? (ofInt n) = some n := by
  cases n with
  | ofNat n =>
    rw [ofInt, toInteger?_digits ofNat_ne_nil fun b => isDigit_of_mem_ofNat, digitsValue_ofNat]
    rfl
  | negSucc n =>
    rw [ofInt, toInteger?_neg_digits ofNat_ne_nil fun b => isDigit_of_mem_ofNat, digitsValue_ofNat]
    rfl

end Text

/-! ## Decimals -/

namespace Decimal

/-- Two decimals are the same number: they agree once the one with the
greater scale is brought to the scale of the other. -/
def SameNumber (a b : Decimal) : Prop :=
  a.coefficient * tenPow (a.scale - b.scale).toNat =
    b.coefficient * tenPow (b.scale - a.scale).toNat

/-- A text without an exponent mark has no exponent. -/
theorem cutExponent_eq {t : Text} (h : ∀ b ∈ t, b ≠ 'e'.toUInt8 ∧ b ≠ 'E'.toUInt8) :
    cutExponent t = (t, none) := by
  have htake : t.takeWhile (fun b => !(b == 'e'.toUInt8 || b == 'E'.toUInt8)) = t := by
    rw [List.takeWhile_eq_self_iff]
    intro b hb
    simp [(h b hb).1, (h b hb).2]
  simp only [cutExponent, htake, List.drop_length]

/-- What stands in a text of a sign and digits. -/
def IsSigned (sign digits : Text) : Prop :=
  (sign = [] ∨ sign = ['-'.toUInt8]) ∧ ∀ b ∈ digits, Text.isDigit b = true

theorem IsSigned.ne {sign digits : Text} (h : IsSigned sign digits) {b mark : UInt8}
    (hb : b ∈ sign ++ digits) (hm : mark ≠ '-'.toUInt8) (hd : Text.isDigit mark = false) :
    b ≠ mark := by
  rintro rfl
  rcases List.mem_append.mp hb with hb | hb
  · rcases h.1 with rfl | rfl
    · cases hb
    · exact hm (by simpa using hb)
  · rw [h.2 b hb] at hd
    cases hd

/-- The number that a sign and digits write. -/
def signedValue (sign digits : Text) : Int :=
  if sign = [] then (Text.digitsValue digits : Int) else -(Text.digitsValue digits : Int)

theorem IsSigned.toInteger? {sign digits : Text} (h : IsSigned sign digits) (hne : digits ≠ []) :
    Text.toInteger? (sign ++ digits) = some (signedValue sign digits) := by
  rcases h.1 with rfl | rfl
  · simpa [signedValue] using Text.toInteger?_digits hne h.2
  · simpa [signedValue] using Text.toInteger?_neg_digits hne h.2

/-- The text of an integer has no mark that is neither a sign nor a
digit. -/
theorem ne_of_toInteger? {t : Text} {n : Int} (h : Text.toInteger? t = some n) {b mark : UInt8}
    (hb : b ∈ t) (hneg : mark ≠ '-'.toUInt8) (hpos : mark ≠ '+'.toUInt8)
    (hd : Text.isDigit mark = false) : b ≠ mark := by
  rintro rfl
  cases t with
  | nil => cases hb
  | cons c cs =>
    have hdigits : (Text.takeSign (c :: cs)).2.all Text.isDigit = true := by
      simp only [Text.toInteger?, Option.ite_none_left_eq_some, Bool.or_eq_true, not_or] at h
      simpa using h.1.2
    -- a byte that is no sign is among the digits
    have hmem : b ∈ (Text.takeSign (c :: cs)).2 := by
      rw [Text.takeSign]
      split
      · rename_i hc
        exact (List.mem_cons.mp hb).resolve_left fun heq => hneg (by simpa [heq] using hc)
      · split
        · rename_i hc
          exact (List.mem_cons.mp hb).resolve_left fun heq => hpos (by simpa [heq] using hc)
        · exact hb
    rw [List.all_eq_true.mp hdigits b hmem] at hd
    cases hd

/-- **The text of an integer** is a decimal without places. -/
theorem ofText?_of_toInteger? {t : Text} {n : Int} (h : Text.toInteger? t = some n) :
    ofText? t = some ⟨n, 0⟩ := by
  have hexp : cutExponent t = (t, none) := cutExponent_eq fun b hb =>
    ⟨ne_of_toInteger? h hb (by decide) (by decide) (by decide),
      ne_of_toInteger? h hb (by decide) (by decide) (by decide)⟩
  have hcut : Text.cut? '.'.toUInt8 t = none :=
    Text.cut?_eq_none_iff.mpr fun hb =>
      ne_of_toInteger? h hb (by decide) (by decide) (by decide) rfl
  have hfit : fitsSigned 32 (0 - ((0 : Nat) : Int)) = true := by decide
  simp only [ofText?, hexp, hcut, h, Option.bind_eq_bind, Option.bind_some, hfit, if_true]
  rfl

theorem ofText?_ofInt (n : Int) : ofText? (Text.ofInt n) = some ⟨n, 0⟩ :=
  ofText?_of_toInteger? (Text.toInteger?_ofInt n)

/-- A whole number is read with scale zero. -/
theorem ofText?_whole (sign digits : Text) (h : IsSigned sign digits) (hne : digits ≠ []) :
    ofText? (sign ++ digits) = some ⟨signedValue sign digits, 0⟩ :=
  ofText?_of_toInteger? (h.toInteger? hne)

/-- A number with a point is read with one place for each digit after it. -/
theorem ofText?_point {sign whole frac : Text} (h : IsSigned sign (whole ++ frac))
    (hne : whole ++ frac ≠ []) (hfit : fitsSigned 32 (-(frac.length : Int)) = true) :
    ofText? (sign ++ whole ++ '.'.toUInt8 :: frac) =
      some ⟨signedValue sign (whole ++ frac), -(frac.length : Int)⟩ := by
  have hmark : ∀ b ∈ sign ++ whole ++ '.'.toUInt8 :: frac,
      b ≠ 'e'.toUInt8 ∧ b ≠ 'E'.toUInt8 := by
    intro b hb
    rw [List.mem_append, List.mem_cons, ← or_assoc, or_right_comm, or_comm, ← List.mem_append,
      List.append_assoc] at hb
    rcases hb with rfl | hb
    · decide
    · exact ⟨h.ne hb (by decide) (by decide), h.ne hb (by decide) (by decide)⟩
  have hcut : Text.cut? '.'.toUInt8 (sign ++ whole ++ '.'.toUInt8 :: frac) =
      some (sign ++ whole, frac) := by
    refine Text.cut?_eq_some_iff.mpr ⟨rfl, fun hb => ?_⟩
    have hmem : '.'.toUInt8 ∈ sign ++ (whole ++ frac) := by
      rw [← List.append_assoc]
      exact List.mem_append_left _ hb
    exact h.ne hmem (by decide) (by decide) rfl
  have hint : Text.toInteger? (sign ++ whole ++ frac) =
      some (signedValue sign (whole ++ frac)) := by
    rw [List.append_assoc]
    exact h.toInteger? hne
  simp only [ofText?, cutExponent_eq hmark, hcut, hint, Option.bind_eq_bind, Option.bind_some,
    Int.zero_sub, hfit, if_true]

/-- The scale of a decimal that was read fits 32 bits. -/
theorem fitsSigned_of_ofText? {t : Text} {d : Decimal} (h : ofText? t = some d) :
    fitsSigned 32 d.scale = true := by
  have hread : ∀ {e : Option Int} {digits : Text} {places : Nat},
      (e.bind fun exp => digits.toInteger?.bind fun c =>
        if fitsSigned 32 (exp - places) = true then some (⟨c, exp - places⟩ : Decimal)
        else none) = some d → fitsSigned 32 d.scale = true := by
    intro e digits places h
    obtain ⟨exp, -, h⟩ := Option.bind_eq_some_iff.mp h
    obtain ⟨c, -, h⟩ := Option.bind_eq_some_iff.mp h
    split at h
    · rename_i hfit
      cases h
      exact hfit
    · cases h
  simp only [ofText?, Option.bind_eq_bind] at h
  split at h
  · exact hread h
  · exact hread h

/-- A text without the zeros at its end, and the zeros. -/
theorem exists_trailing (z : UInt8) (t : Text) :
    ∃ k, t = (t.reverse.dropWhile (· == z)).reverse ++ List.replicate k z := by
  refine ⟨(t.reverse.takeWhile (· == z)).length, ?_⟩
  have hz : t.reverse.takeWhile (· == z) =
      List.replicate (t.reverse.takeWhile (· == z)).length z := by
    rw [List.eq_replicate_iff]
    exact ⟨rfl, fun b hb => by simpa using List.mem_takeWhile_imp hb⟩
  have hsplit := congrArg List.reverse
    (List.takeWhile_append_dropWhile (p := (· == z)) (l := t.reverse))
  rw [List.reverse_append, List.reverse_reverse, hz, List.reverse_replicate] at hsplit
  exact hsplit.symm

/-- The sign of a decimal as it is printed. -/
def signText (d : Decimal) : Text := if d.coefficient < 0 then ['-'.toUInt8] else []

/-- **A decimal with places after the point**, as it is printed: the
digits before the point, those after it without the zeros at their end,
and how many zeros these are. -/
theorem toText_fraction {d : Decimal} (hs : d.scale < 0) :
    ∃ whole frac k, d.toText =
        d.signText ++ whole ++ (if frac = [] then [] else '.'.toUInt8 :: frac) ∧
      whole ≠ [] ∧ (∀ b ∈ whole ++ frac, Text.isDigit b = true) ∧
      Text.digitsValue (whole ++ frac) * 10 ^ k = d.coefficient.natAbs ∧
      d.scale = -((frac.length + k : Nat) : Int) := by
  -- zeros before the digits leave at least one of them before the point
  let places := (-d.scale).toNat
  let padding := places + 1 - (Text.ofNat d.coefficient.natAbs).length
  let digits := List.replicate padding '0'.toUInt8 ++ Text.ofNat d.coefficient.natAbs
  have hdigits : ∀ b ∈ digits, Text.isDigit b = true := by
    intro b hb
    rcases List.mem_append.mp hb with hb | hb
    · rw [List.eq_of_mem_replicate hb]
      decide
    · exact Text.isDigit_of_mem_ofNat hb
  have hvalue : Text.digitsValue digits = d.coefficient.natAbs := by
    rw [Text.digitsValue_append, Text.digitsValue_replicate_zero, Text.digitsValue_ofNat,
      Nat.zero_mul, Nat.zero_add]
  have hlen : places + 1 ≤ digits.length := by
    simp only [digits, List.length_append, List.length_replicate]
    omega
  -- the point stands `places` before the end, and the zeros at the end go
  let whole := digits.take (digits.length - places)
  let tail : Text := digits.drop (digits.length - places)
  let frac : Text := (tail.reverse.dropWhile (· == '0'.toUInt8)).reverse
  obtain ⟨k, hk⟩ := exists_trailing '0'.toUInt8 tail
  have htail : tail = frac ++ List.replicate k '0'.toUInt8 := hk
  have hsplit : digits = (whole ++ frac) ++ List.replicate k '0'.toUInt8 := by
    rw [List.append_assoc, ← htail]
    exact (List.take_append_drop _ _).symm
  have hcount : tail.length = places := by
    simp only [tail, List.length_drop]
    omega
  refine ⟨whole, frac, k, ?_, ?_, ?_, ?_, ?_⟩
  · have hsign : (if d.coefficient < 0 then ("-" : Text) else "") = d.signText := by
      rw [signText]
      split <;> decide
    have hpoint : (if frac.isEmpty then frac else ("." : Text) ++ frac) =
        if frac = [] then [] else '.'.toUInt8 :: frac := by
      cases frac with
      | nil => rfl
      | cons b t => rfl
    rw [toText, if_neg (by omega), ← hsign, ← hpoint]
  · intro hw
    have : whole.length = 0 := by rw [hw]; rfl
    simp only [whole, List.length_take] at this
    omega
  · intro b hb
    exact hdigits b (hsplit ▸ List.mem_append_left _ hb)
  · rw [← hvalue, hsplit, Text.digitsValue_append _ (List.replicate _ _),
      Text.digitsValue_replicate_zero, List.length_replicate, Nat.add_zero]
  · rw [htail, List.length_append, List.length_replicate] at hcount
    omega

/-- **A decimal is read back from its text as the same number**, if its
scale fits 32 bits. -/
theorem ofText?_toText {d : Decimal} (hfit : fitsSigned 32 d.scale = true) :
    ∃ e, ofText? d.toText = some e ∧ d.SameNumber e := by
  by_cases hs : 0 ≤ d.scale
  · -- a whole number: the zeros of the scale are part of the coefficient
    refine ⟨⟨d.coefficient * tenPow d.scale.toNat, 0⟩, ?_, ?_⟩
    · rw [toText, if_pos hs]
      exact ofText?_ofInt _
    · simp [SameNumber, tenPow, Int.toNat_of_nonpos (by omega : -d.scale ≤ 0)]
  · -- the zeros at the end of the places go, and the scale with them
    obtain ⟨whole, frac, k, htext, hwhole, hdigits, hvalue, hscale⟩ :=
      toText_fraction (d := d) (by omega)
    have hsigned : IsSigned d.signText (whole ++ frac) := by
      refine ⟨?_, hdigits⟩
      rw [signText]
      split <;> simp
    have hne : whole ++ frac ≠ [] := by simp [hwhole]
    have hcoef : d.coefficient = signedValue d.signText (whole ++ frac) * tenPow k := by
      have hcast :
          (Text.digitsValue (whole ++ frac) : Int) * tenPow k = d.coefficient.natAbs := by
        rw [← hvalue]
        push_cast
        rfl
      rw [signText, signedValue]
      split
      · simp only [List.cons_ne_nil, if_false, Int.neg_mul, hcast]
        omega
      · simp only [if_true, hcast]
        omega
    have hread : ofText? d.toText =
        some ⟨signedValue d.signText (whole ++ frac), -(frac.length : Int)⟩ := by
      rw [htext]
      by_cases hfrac : frac = []
      · subst hfrac
        simp only [List.append_nil, if_true] at hsigned ⊢
        exact ofText?_whole _ _ hsigned hwhole
      · rw [if_neg hfrac]
        refine ofText?_point hsigned hne ?_
        simp only [fitsSigned, Bool.and_eq_true, decide_eq_true_eq] at hfit ⊢
        omega
    refine ⟨_, hread, ?_⟩
    have hup : (d.scale - -(frac.length : Int)).toNat = 0 := by omega
    have hdown : (-(frac.length : Int) - d.scale).toNat = k := by omega
    rw [SameNumber, hup, hdown, hcoef]
    exact Int.mul_one _

end Decimal

end WireModel
