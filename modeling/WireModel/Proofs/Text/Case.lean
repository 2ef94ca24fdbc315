import Mathlib.Data.List.Basic
import WireModel.Naming.Title
import WireModel.Proofs.Text.Rune

/-!
# Letter case — words of ASCII letters and digits

The case mappings are tables of all of Unicode. On words of ASCII letters
and digits little is left of them: upper case changes letter by letter
(`Text.toUpper_eq_map`), and title case changes the first letter and
nothing else (`Text.toTitle_eq_capital`). Digits in front of it are
skipped.
-/

namespace WireModel

namespace Text

/-- A letter or a digit. -/
def isWordByte (b : UInt8) : Bool := isLetter b || isDigit b

/-- The upper case form of an ASCII letter; any other byte is kept. -/
def upperByte (b : UInt8) : UInt8 := if isLower b then b - 32 else b

/-- A word with its first letter in upper case. -/
def capital : Text → Text
  | [] => []
  | b :: t => if isLetter b then upperByte b :: t else b :: capital t

/-! ## Bytes -/

variable {b : UInt8} {t : Text}

theorem isLower_iff : isLower b = true ↔ 97 ≤ b.toNat ∧ b.toNat ≤ 122 := by
  rw [isLower, Bool.and_eq_true, decide_eq_true_eq, decide_eq_true_eq, UInt8.le_iff_toNat_le,
    UInt8.le_iff_toNat_le]
  rfl

theorem isUpper_iff : isUpper b = true ↔ 65 ≤ b.toNat ∧ b.toNat ≤ 90 := by
  rw [isUpper, Bool.and_eq_true, decide_eq_true_eq, decide_eq_true_eq, UInt8.le_iff_toNat_le,
    UInt8.le_iff_toNat_le]
  rfl

theorem isDigit_iff : isDigit b = true ↔ 48 ≤ b.toNat ∧ b.toNat ≤ 57 := by
  rw [isDigit, Bool.and_eq_true, decide_eq_true_eq, decide_eq_true_eq, UInt8.le_iff_toNat_le,
    UInt8.le_iff_toNat_le]
  rfl

theorem isLetter_iff : isLetter b = true ↔
    97 ≤ b.toNat ∧ b.toNat ≤ 122 ∨ 65 ≤ b.toNat ∧ b.toNat ≤ 90 := by
  rw [isLetter, Bool.or_eq_true, isLower_iff, isUpper_iff]

theorem isWordByte_iff : isWordByte b = true ↔ isLetter b = true ∨ isDigit b = true := by
  rw [isWordByte, Bool.or_eq_true]

theorem lt_of_isWordByte (h : isWordByte b = true) : b.toNat < 0x80 := by
  rw [isWordByte_iff, isLetter_iff, isDigit_iff] at h
  omega

theorem toNat_upperByte (h : isLower b = true) : (upperByte b).toNat = b.toNat - 32 := by
  have hle : (32 : UInt8) ≤ b :=
    UInt8.le_iff_toNat_le.mpr (Nat.le_trans (by decide) (isLower_iff.mp h).1)
  rw [upperByte, if_pos h, UInt8.toNat_sub_of_le _ _ hle]
  rfl

theorem upperByte_of_not_isLower (h : isLower b = false) : upperByte b = b := by
  rw [upperByte, if_neg (by simp [h])]

theorem toNat_lowerByte (h : isUpper b = true) : (lowerByte b).toNat = b.toNat + 32 := by
  have hbounds := isUpper_iff.mp h
  have hlt : b.toNat + (32 : UInt8).toNat < 2 ^ 8 :=
    Nat.lt_of_le_of_lt (Nat.add_le_add_right hbounds.2 _) (by decide)
  rw [lowerByte, if_pos h, UInt8.toNat_add, Nat.mod_eq_of_lt hlt]
  rfl

theorem lt_lowerByte (h : b.toNat < 0x80) : (lowerByte b).toNat < 0x80 := by
  by_cases hup : isUpper b = true
  · have hbounds := isUpper_iff.mp hup
    rw [toNat_lowerByte hup]
    omega
  · rwa [lowerByte, if_neg hup]

/-- **The bytes that have a capital** are the letters. -/
theorem isUpper_upperByte (b : UInt8) : isUpper (upperByte b) = isLetter b := by
  by_cases hlow : isLower b = true
  · have hbounds := isLower_iff.mp hlow
    rw [isLetter, hlow, Bool.true_or, isUpper_iff, toNat_upperByte hlow]
    omega
  · rw [upperByte_of_not_isLower (by simpa using hlow), isLetter, Bool.eq_false_iff.mpr hlow,
      Bool.false_or]

/-- A digit has none. -/
theorem upperByte_of_isDigit (h : isDigit b = true) : upperByte b = b := by
  refine upperByte_of_not_isLower (Bool.eq_false_iff.mpr fun hlow => ?_)
  rw [isDigit_iff] at h
  rw [isLower_iff] at hlow
  omega

theorem isWordByte_upperByte (h : isWordByte b = true) : isWordByte (upperByte b) = true := by
  rcases isWordByte_iff.mp h with hletter | hdigit
  · rw [isWordByte, isLetter, isUpper_upperByte, hletter, Bool.or_true, Bool.true_or]
  · rwa [upperByte_of_isDigit hdigit]

/-! ## Tables

Letters without accents and digits stand before everything else in the
tables. What a table says of them is read off it once. -/

/-- **What the tables say of letters without accents and of digits.** Every
letter has a case, and the other letter for its other case; whatever else a
table holds stands behind them, and mostly behind all of ASCII. -/
structure AsciiTables : Prop where
  upper : ∀ k : Fin 26, mapCase upperRuns (97 + k) = 65 + k
  lower : ∀ k : Fin 26, mapCase lowerRuns (65 + k) = 97 + k
  cased : ∀ k : Fin 26, isCased (97 + k) = true ∧ isCased (65 + k) = true
  digit : ∀ k : Fin 10, isWordRune (48 + k) = true
  joiner : ∀ c : Fin 128, isWordByte (c : Nat).toUInt8 = true → isJoinerRune c = false
  le_upper : ∀ r ∈ upperRuns.toList, 0x61 ≤ r.first
  le_laterUpper : ∀ r ∈ laterUpperRuns.toList, 0x80 ≤ r.first
  le_lower : ∀ r ∈ lowerRuns.toList, r.first = 0x41 ∧ r.last = 0x5A ∨ 0x80 ≤ r.first
  le_laterLower : ∀ r ∈ laterLowerRuns.toList, 0x80 ≤ r.first
  le_title : ∀ r ∈ titleForms.toList, 0x80 ≤ r.1
  le_cased : ∀ r ∈ casedRanges.toList, 0x41 ≤ r.1

theorem asciiTables : AsciiTables := by
  constructor <;> decide +kernel

/-- A code point outside of all runs is kept. -/
theorem mapCase_of_outside {runs : Array CaseRun} {c : Nat}
    (h : ∀ r ∈ runs.toList, c < r.first ∨ r.last < c) : mapCase runs c = c := by
  have hnone : runs.find? (·.covers c) = none := by
    refine Array.find?_eq_none.mpr fun r hr => ?_
    rcases h r (Array.mem_toList_iff.mpr hr) with hlt | hlt <;>
      simp [CaseRun.covers, Nat.not_le.mpr hlt]
  rw [mapCase, hnone]

/-- As is one in front of them. -/
theorem mapCase_of_lt {runs : Array CaseRun} {c : Nat} (h : ∀ r ∈ runs.toList, c < r.first) :
    mapCase runs c = c :=
  mapCase_of_outside fun r hr => Or.inl (h r hr)

theorem mapCase_upperRuns (h : isWordByte b = true) :
    mapCase upperRuns b.toNat = (upperByte b).toNat := by
  have htables := asciiTables
  by_cases hlow : isLower b = true
  · have hbounds := isLower_iff.mp hlow
    have hk : mapCase upperRuns (97 + (b.toNat - 97)) = 65 + (b.toNat - 97) :=
      htables.upper ⟨b.toNat - 97, by omega⟩
    rw [Nat.add_sub_of_le hbounds.1] at hk
    rw [toNat_upperByte hlow, hk]
    omega
  · rw [upperByte_of_not_isLower (by simpa using hlow)]
    refine mapCase_of_lt fun r hr => ?_
    have hfirst := htables.le_upper r hr
    rw [isWordByte_iff, isLetter_iff, isDigit_iff] at h
    rw [isLower_iff] at hlow
    omega

theorem upperRune_toNat (h : isWordByte b = true) : upperRune b.toNat = (upperByte b).toNat := by
  have htables := asciiTables
  rw [upperRune, mapCase_upperRuns h]
  refine mapCase_of_lt fun r hr => ?_
  have hfirst := htables.le_laterUpper r hr
  have hlt := lt_of_isWordByte (isWordByte_upperByte h)
  omega

theorem lowerRune_toNat (h : b.toNat < 0x80) : lowerRune b.toNat = (lowerByte b).toNat := by
  have htables := asciiTables
  have hfirst : mapCase lowerRuns b.toNat = (lowerByte b).toNat := by
    by_cases hup : isUpper b = true
    · have hbounds := isUpper_iff.mp hup
      have hk : mapCase lowerRuns (65 + (b.toNat - 65)) = 97 + (b.toNat - 65) :=
        htables.lower ⟨b.toNat - 65, by omega⟩
      rw [Nat.add_sub_of_le hbounds.1] at hk
      rw [toNat_lowerByte hup, hk]
      omega
    · rw [lowerByte, if_neg hup]
      refine mapCase_of_outside fun r hr => ?_
      rw [isUpper_iff] at hup
      have hrun := htables.le_lower r hr
      omega
  rw [lowerRune, hfirst]
  refine mapCase_of_lt fun r hr => ?_
  have hrun := htables.le_laterLower r hr
  have hlt := lt_lowerByte h
  omega

theorem titleRune_toNat (h : isWordByte b = true) : titleRune b.toNat = [(upperByte b).toNat] := by
  have htables := asciiTables
  have hnone : titleForms.find? (·.1 == b.toNat) = none := by
    refine Array.find?_eq_none.mpr fun r hr => ?_
    have hfirst := htables.le_title r (Array.mem_toList_iff.mpr hr)
    have hlt := lt_of_isWordByte h
    simp only [beq_iff_eq]
    omega
  rw [titleRune, hnone, mapCase_upperRuns h]

theorem isCased_toNat (h : isWordByte b = true) : isCased b.toNat = isLetter b := by
  have htables := asciiTables
  by_cases hletter : isLetter b = true
  · rw [hletter]
    rcases isLetter_iff.mp hletter with hb | hb
    · have hk := (htables.cased ⟨b.toNat - 97, by omega⟩).1
      rwa [Nat.add_sub_of_le hb.1] at hk
    · have hk := (htables.cased ⟨b.toNat - 65, by omega⟩).2
      rwa [Nat.add_sub_of_le hb.1] at hk
  · have hdigit := isDigit_iff.mp ((isWordByte_iff.mp h).resolve_left hletter)
    rw [Bool.eq_false_iff.mpr hletter, isCased, Array.any_eq_false']
    intro r hr
    have hfirst := htables.le_cased r (Array.mem_toList_iff.mpr hr)
    simp only [Bool.and_eq_true, decide_eq_true_eq]
    omega

theorem isJoinerRune_toNat (h : isWordByte b = true) : isJoinerRune b.toNat = false := by
  have htables := asciiTables
  have hword := htables.joiner ⟨b.toNat, lt_of_isWordByte h⟩
  rw [toUInt8_eq rfl] at hword
  exact hword h

theorem isWordRune_toNat (h : isDigit b = true) : isWordRune b.toNat = true := by
  have htables := asciiTables
  have hbounds := isDigit_iff.mp h
  have hk := htables.digit ⟨b.toNat - 48, by omega⟩
  rwa [Nat.add_sub_of_le hbounds.1] at hk

/-! ## Words -/

/-- An ASCII text has its bytes for runes. -/
theorem runes_eq_map (h : ∀ b ∈ t, b.toNat < 0x80) : runes t = t.map fun b => .code b.toNat := by
  induction t with
  | nil => rfl
  | cons b t ih =>
    obtain ⟨hb, ht⟩ := List.forall_mem_cons.mp h
    rw [runes_cons_of_lt hb, ih ht, List.map_cons]

theorem runes_of_isWordByte (h : ∀ b ∈ t, isWordByte b = true) :
    runes t = t.map fun b => .code b.toNat :=
  runes_eq_map fun b hb => lt_of_isWordByte (h b hb)

/-- **Upper case** changes letter by letter. -/
theorem toUpper_eq_map (h : ∀ b ∈ t, isWordByte b = true) : toUpper t = t.map upperByte := by
  rw [toUpper, runes_of_isWordByte h, List.flatMap_map, List.map_eq_flatMap]
  refine List.flatMap_congr fun b hb => ?_
  have hword := h b hb
  rw [Rune.codePoint, upperRune_toNat hword,
    ofRune_one (lt_of_isWordByte (isWordByte_upperByte hword))]

/-- **Lower case** changes letter by letter too. -/
theorem toLower_eq_map (h : ∀ b ∈ t, b.toNat < 0x80) : toLower t = t.map lowerByte := by
  rw [toLower, runes_eq_map h, List.flatMap_map, List.map_eq_flatMap]
  refine List.flatMap_congr fun b hb => ?_
  have hlt := h b hb
  rw [Rune.codePoint, lowerRune_toNat hlt, ofRune_one (lt_lowerByte hlt)]

/-- The same by a test of all bytes. -/
theorem toLower_eq_map_of_all (h : t.all (·.toNat < 0x80) = true) :
    toLower t = t.map lowerByte :=
  toLower_eq_map fun b hb => by simpa using List.all_eq_true.mp h b hb

/-- One step of title case, where no joining mark stands before it. -/
theorem titleRunes_cons (hb : isWordByte b = true) (inWord : Bool) (rs : List Rune) :
    titleRunes inWord false (.code b.toNat :: rs) =
      if isLetter b then (if inWord then b else upperByte b) :: titleRunes true false rs
      else b :: titleRunes inWord false rs := by
  have hbyte : ofRune b.toNat = [b] := ofRune_one (lt_of_isWordByte hb)
  have hjoiner : isJoiner (.code b.toNat) = false := isJoinerRune_toNat hb
  rw [titleRunes]
  simp only [hjoiner, isCased_toNat hb, hbyte, Bool.and_false, Bool.not_false, Bool.and_true]
  by_cases hletter : isLetter b = true
  · rw [if_pos hletter, if_pos hletter, titleRune_toNat hb, List.flatMap_singleton,
      ofRune_one (lt_of_isWordByte (isWordByte_upperByte hb))]
    cases inWord <;> rfl
  · have hword := isWordRune_toNat ((isWordByte_iff.mp hb).resolve_left hletter)
    rw [if_neg hletter, if_neg hletter, hword, Bool.and_true, List.singleton_append]

/-- After its first letter a word stays as it is. -/
theorem titleRunes_inWord (h : ∀ b ∈ t, isWordByte b = true) :
    titleRunes true false (t.map fun b => .code b.toNat) = t := by
  induction t with
  | nil => rfl
  | cons b t ih =>
    obtain ⟨hb, ht⟩ := List.forall_mem_cons.mp h
    rw [List.map_cons, titleRunes_cons hb, ih ht]
    simp

/-- **Title case** changes the first letter and nothing else. -/
theorem toTitle_eq_capital (h : ∀ b ∈ t, isWordByte b = true) : toTitle t = capital t := by
  rw [toTitle, runes_of_isWordByte h]
  induction t with
  | nil => rfl
  | cons b t ih =>
    obtain ⟨hb, ht⟩ := List.forall_mem_cons.mp h
    rw [List.map_cons, titleRunes_cons hb, ih ht, titleRunes_inWord ht, capital]
    simp

theorem isWordByte_of_mem_capital (h : ∀ b ∈ t, isWordByte b = true) :
    ∀ b ∈ capital t, isWordByte b = true := by
  induction t with
  | nil => exact h
  | cons c t ih =>
    obtain ⟨hc, ht⟩ := List.forall_mem_cons.mp h
    rw [capital]
    split
    · exact List.forall_mem_cons.mpr ⟨isWordByte_upperByte hc, ht⟩
    · exact List.forall_mem_cons.mpr ⟨hc, ih ht⟩

end Text

end WireModel
