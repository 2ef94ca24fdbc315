import WireModel.Proofs.Number.Rational

/-!
# Numbers of JSON documents

A document writes a number as an optional minus sign, digits without a
needless zero in front, and behind them possibly a point with more digits
and an exponent of ten (`JsonNumber`). Every such text is a number
(`JsonNumber.rational?_text`), and it is one that reads as an integer if
and only if it has neither a point nor an exponent
(`JsonNumber.toInteger?_text_eq_some_iff`), whatever number it is.
-/

namespace WireModel

/-- At least one digit, and nothing else. -/
def Text.IsDigits (t : Text) : Prop := t ≠ [] ∧ ∀ b ∈ t, Text.isDigit b = true

/-- The exponent of a number. -/
structure JsonExponent where
  mark : UInt8
  /-- The sign, empty if there is none. -/
  sign : Text
  digits : Text
  isMark : mark = 'e'.toUInt8 ∨ mark = 'E'.toUInt8
  isSign : sign = [] ∨ sign = ['+'.toUInt8] ∨ sign = ['-'.toUInt8]
  isDigits : digits.IsDigits

/-- **A number of a JSON document**, by its parts. -/
structure JsonNumber where
  negative : Bool
  /-- The digits before the point. -/
  whole : Text
  /-- The digits after the point, if there is one. -/
  places : Option Text
  exponent : Option JsonExponent
  isWhole : whole.IsDigits
  noLeadingZero : ∀ ds, whole = '0'.toUInt8 :: ds → ds = []
  isPlaces : ∀ ds ∈ places, ds.IsDigits

namespace JsonExponent

variable (e : JsonExponent)

/-- The exponent as it is written. -/
def text : Text := e.mark :: (e.sign ++ e.digits)

/-- The exponent as a number. -/
def value : Int :=
  if e.sign = ['-'.toUInt8] then -(Text.placeValue e.digits : Int) else Text.placeValue e.digits

end JsonExponent

namespace JsonNumber

variable (p : JsonNumber)

/-- The digits and the point. -/
def mantissa : Text := p.whole ++ (p.places.map ('.'.toUInt8 :: ·)).getD []

/-- The number as it is written. -/
def text : Text :=
  (if p.negative then ['-'.toUInt8] else []) ++ p.mantissa ++ (p.exponent.map (·.text)).getD []

/-- The number. -/
def value : ℚ :=
  let places := p.places.getD []
  (if p.negative then -1 else 1) *
    (Text.placeValue p.whole + Text.placeValue places / 10 ^ places.length) *
    10 ^ (p.exponent.map (·.value)).getD 0

/-- Whether nothing but a sign and digits is written. -/
def IsPlain : Prop := p.places = none ∧ p.exponent = none

end JsonNumber

/-! ## Reading the parts -/

namespace Text

theorem IsDigits.ne_of_mem {t : Text} (h : t.IsDigits) {b mark : UInt8} (hb : b ∈ t)
    (hmark : isDigit mark = false) : b ≠ mark := by
  rintro rfl
  rw [h.2 b hb] at hmark
  cases hmark

/-- Digits after a plus sign are read as without it. -/
theorem toInteger?_plus_digits {t : Text} (h : t.IsDigits) :
    toInteger? ('+'.toUInt8 :: t) = some (digitsValue t : Int) := by
  have hsign : takeSign ('+'.toUInt8 :: t) = (false, t) := rfl
  have hall : t.all isDigit = true := List.all_eq_true.mpr h.2
  simp [toInteger?, hsign, hall, h.1]

end Text

/-- A text is cut at the first mark of an exponent. -/
theorem Decimal.cutExponent_append {t e : Text} {mark : UInt8}
    (h : ∀ b ∈ t, b ≠ 'e'.toUInt8 ∧ b ≠ 'E'.toUInt8)
    (hmark : mark = 'e'.toUInt8 ∨ mark = 'E'.toUInt8) :
    cutExponent (t ++ mark :: e) = (t, some e) := by
  have htake : (t ++ mark :: e).takeWhile
      (fun b => !(b == 'e'.toUInt8 || b == 'E'.toUInt8)) = t := by
    have hstop : (!(mark == 'e'.toUInt8 || mark == 'E'.toUInt8)) = false := by
      rcases hmark with rfl | rfl <;> decide
    rw [List.takeWhile_append_of_pos, List.takeWhile_cons_of_neg (by simp [hstop]),
      List.append_nil]
    intro b hb
    simp [(h b hb).1, (h b hb).2]
  simp only [cutExponent, htake, List.drop_left]

/-- The exponent is read as its number. -/
theorem JsonExponent.toInteger?_eq (e : JsonExponent) :
    (e.sign ++ e.digits).toInteger? = some e.value := by
  have hplace := Text.digitsValue_eq_placeValue e.digits
  rcases e.isSign with hsign | hsign | hsign
  · rw [value, hsign, if_neg (by simp), ← hplace]
    exact Text.toInteger?_digits e.isDigits.1 e.isDigits.2
  · rw [value, hsign, if_neg (by decide), ← hplace]
    exact Text.toInteger?_plus_digits e.isDigits
  · rw [value, hsign, if_pos rfl, ← hplace]
    exact Text.toInteger?_neg_digits e.isDigits.1 e.isDigits.2

namespace JsonNumber

variable {p : JsonNumber}

/-- The digits before the point start with one that is no sign. -/
theorem takeSign_text (p : JsonNumber) :
    p.text.takeSign = (p.negative, p.mantissa ++ (p.exponent.map (·.text)).getD []) := by
  cases hneg : p.negative with
  | true => simp [text, hneg, Text.takeSign]
  | false =>
    obtain ⟨b, bs, hwhole⟩ := List.exists_cons_of_ne_nil p.isWhole.1
    have hb : b ∈ p.whole := by rw [hwhole]; exact List.mem_cons_self
    have hminus : b ≠ '-'.toUInt8 := p.isWhole.ne_of_mem hb (by decide)
    have hplus : b ≠ '+'.toUInt8 := p.isWhole.ne_of_mem hb (by decide)
    simp [text, hneg, mantissa, hwhole, Text.takeSign, hminus, hplus]

/-- A byte of the mantissa is a digit or the point. -/
theorem isDigit_of_mem_mantissa {b : UInt8} (h : b ∈ p.mantissa) :
    Text.isDigit b = true ∨ b = '.'.toUInt8 := by
  rcases List.mem_append.mp h with h | h
  · exact Or.inl (p.isWhole.2 b h)
  · cases hplaces : p.places with
    | none => simp [hplaces] at h
    | some ds =>
      rw [hplaces, Option.map_some, Option.getD_some, List.mem_cons] at h
      exact h.symm.imp_left ((p.isPlaces ds hplaces).2 b)

theorem cutExponent_eq (p : JsonNumber) :
    Decimal.cutExponent (p.mantissa ++ (p.exponent.map (·.text)).getD []) =
      (p.mantissa, p.exponent.map fun e => e.sign ++ e.digits) := by
  have hplain : ∀ b ∈ p.mantissa, b ≠ 'e'.toUInt8 ∧ b ≠ 'E'.toUInt8 := by
    intro b hb
    rcases isDigit_of_mem_mantissa hb with hdigit | rfl
    · constructor
      · rintro rfl
        exact absurd hdigit (by decide)
      · rintro rfl
        exact absurd hdigit (by decide)
    · decide
  cases hexp : p.exponent with
  | none =>
    rw [Option.map_none, Option.getD_none, List.append_nil]
    exact Decimal.cutExponent_eq hplain
  | some e => exact Decimal.cutExponent_append hplain e.isMark

theorem cut?_mantissa (p : JsonNumber) :
    Text.cut? '.'.toUInt8 p.mantissa = p.places.map fun ds => (p.whole, ds) := by
  have hwhole : '.'.toUInt8 ∉ p.whole := fun h => p.isWhole.ne_of_mem h (by decide) rfl
  cases hplaces : p.places with
  | none =>
    rw [mantissa, hplaces]
    exact Text.cut?_eq_none_iff.mpr (by simpa using hwhole)
  | some ds =>
    rw [mantissa, hplaces]
    exact Text.cut?_eq_some_iff.mpr ⟨rfl, hwhole⟩

/-- **Every number of a document is a number**, namely the one that its
digits and its exponent say. -/
theorem rational?_text (p : JsonNumber) : p.text.rational? = some p.value := by
  have hplaces : ∀ b ∈ p.places.getD [], Text.isDigit b = true := by
    cases h : p.places with
    | none => simp
    | some ds => exact (p.isPlaces ds h).2
  have hparts : (p.places.map fun ds => (p.whole, ds)).getD (p.mantissa, []) =
      (p.whole, p.places.getD []) := by
    cases h : p.places with
    | none => simp [mantissa, h]
    | some ds => rfl
  have hdigits : ((p.whole ++ p.places.getD []).isEmpty ||
      !(p.whole ++ p.places.getD []).all Text.isDigit) = false := by
    have hall : (p.whole ++ p.places.getD []).all Text.isDigit = true := by
      rw [List.all_append, List.all_eq_true.mpr p.isWhole.2, List.all_eq_true.mpr hplaces]
      rfl
    simp [hall, p.isWhole.1]
  unfold Text.rational?
  simp only [takeSign_text, cutExponent_eq, cut?_mantissa, hparts, hdigits]
  cases hexp : p.exponent with
  | none => simp [value, hexp]
  | some e => simp [value, hexp, e.toInteger?_eq]

/-- **A number of a document reads as an integer** if and only if it is
written by a sign and digits alone, and then as the integer that it is. -/
theorem toInteger?_text_eq_some_iff {n : Int} :
    p.text.toInteger? = some n ↔ p.IsPlain ∧ p.value = n := by
  constructor
  · intro h
    have hmark : ∀ b ∈ p.text, b ≠ '.'.toUInt8 ∧ b ≠ 'e'.toUInt8 ∧ b ≠ 'E'.toUInt8 := fun b hb =>
      ⟨Decimal.ne_of_toInteger? h hb (by decide) (by decide) (by decide),
        Decimal.ne_of_toInteger? h hb (by decide) (by decide) (by decide),
        Decimal.ne_of_toInteger? h hb (by decide) (by decide) (by decide)⟩
    refine ⟨⟨?_, ?_⟩, ?_⟩
    · refine Option.eq_none_iff_forall_ne_some.mpr fun ds hds => ?_
      exact (hmark '.'.toUInt8 (by simp [text, mantissa, hds])).1 rfl
    · refine Option.eq_none_iff_forall_ne_some.mpr fun e he => ?_
      have hmem : e.mark ∈ p.text := by simp [text, he, JsonExponent.text]
      rcases e.isMark with hm | hm
      · exact (hmark _ hmem).2.1 hm
      · exact (hmark _ hmem).2.2 hm
    · have hvalue := Text.rational?_of_toInteger? h
      rwa [rational?_text, Option.some_inj] at hvalue
  · rintro ⟨⟨hplaces, hexp⟩, hvalue⟩
    -- the integer that is read of the digits is the number, as both are its value
    obtain ⟨m, hm⟩ : ∃ m, p.text.toInteger? = some m := by
      rw [text, mantissa, hplaces, hexp]
      cases p.negative with
      | false => exact ⟨_, by simpa using Text.toInteger?_digits p.isWhole.1 p.isWhole.2⟩
      | true => exact ⟨_, by simpa using Text.toInteger?_neg_digits p.isWhole.1 p.isWhole.2⟩
    have hrat := Text.rational?_of_toInteger? hm
    rw [rational?_text, Option.some_inj, hvalue, Int.cast_inj] at hrat
    rw [hm, hrat]

end JsonNumber

end WireModel
