import WireModel.Proofs.Spec.WellFormed
import WireModel.Schema.Document

/-!
# The range of an integer type — the same for all who ask

Which integers a type of a width has is decided in three places, each in
its own way. Validation compares a constant with the bounds of the type.
A decoder cuts a word down to the width and looks whether it has changed
(`Value.toWord`). A schema has the bounds of the widest words, shifted to
the right and filled up with their sign (`Schema.leastWord`,
`Schema.greatestWord`). They agree on every word of 64 bits
(`integer_range_agrees`).
-/

namespace WireModel

/-! ## The bounds of schemas -/

namespace Schema

/-- The least word of a width, as a word of 64 bits: the least of these,
shifted to the right. -/
def leastWord (width : Nat) : BitVec 64 := (BitVec.intMin 64).sshiftRight (64 - width)

/-- The greatest word of a width in the same way. -/
def greatestWord (width : Nat) : BitVec 64 := (BitVec.intMax 64).sshiftRight (64 - width)

variable {width : Nat}

/-- The power of two that the bounds are shifted by, and what it leaves. -/
theorem pow_split (hpos : 0 < width) (hwidth : width ≤ 64) :
    (2 ^ 63 : Int) = 2 ^ (width - 1) * 2 ^ (64 - width) := by
  rw [← pow_add]
  congr 1
  omega

theorem toInt_leastWord (hpos : 0 < width) (hwidth : width ≤ 64) :
    (leastWord width).toInt = leastOf width := by
  have hmin : (BitVec.intMin 64).toInt = -2 ^ 63 := by decide
  have hexp : ((width : Int) - 1).toNat = width - 1 := by omega
  rw [leastWord, BitVec.toInt_sshiftRight, Int.shiftRight_eq_div_pow, hmin,
    pow_split hpos hwidth, leastOf, hexp, twoPow_eq, ← neg_mul, Nat.cast_pow, Nat.cast_pow,
    Nat.cast_ofNat]
  exact Int.mul_ediv_cancel _ (by positivity)

/-- The greatest word is all ones but for its sign, and so is what is left
of it. -/
theorem toInt_greatestWord (hpos : 0 < width) (hwidth : width ≤ 64) :
    (greatestWord width).toInt = greatestOf width := by
  have hmax : (BitVec.intMax 64).toInt = 2 ^ 63 - 1 := by decide
  have hexp : ((width : Int) - 1).toNat = width - 1 := by omega
  have hones : (2 ^ (width - 1) * 2 ^ (64 - width) - 1 : Int) =
      (2 ^ (64 - width) - 1) + (2 ^ (width - 1) - 1) * 2 ^ (64 - width) := by ring
  have hshift : (0 : Int) < 2 ^ (64 - width) := by positivity
  rw [greatestWord, BitVec.toInt_sshiftRight, Int.shiftRight_eq_div_pow, hmax,
    pow_split hpos hwidth, greatestOf, hexp, twoPow_eq, Nat.cast_pow, Nat.cast_pow,
    Nat.cast_ofNat, hones, Int.add_mul_ediv_right _ _ hshift.ne',
    Int.ediv_eq_zero_of_lt (by omega) (by omega), zero_add]

/-- Whether a word of 64 bits is between the bounds of a width. -/
def Bounds (width : Nat) (x : BitVec 64) : Prop :=
  (leastWord width).sle x = true ∧ x.sle (greatestWord width) = true

instance (width : Nat) (x : BitVec 64) : Decidable (Bounds width x) :=
  inferInstanceAs (Decidable (_ ∧ _))

/-- **A word is between the bounds** of a width if it is one of its
words. -/
theorem bounds_iff_inRange (hpos : 0 < width) (hwidth : width ≤ 64) {x : BitVec 64} :
    Bounds width x ↔ Value.InRange width x.toInt := by
  have hexp : ((width : Int) - 1).toNat = width - 1 := by omega
  rw [Bounds, BitVec.sle_iff_toInt_le, BitVec.sle_iff_toInt_le, toInt_leastWord hpos hwidth,
    toInt_greatestWord hpos hwidth, leastOf, greatestOf, hexp, Value.InRange, twoPow_eq,
    Nat.cast_pow, Nat.cast_ofNat]
  omega

/-- **The schema of an integer type** has the shifted bounds. -/
theorem keywords_ofType_int (hpos : 0 < width) (hwidth : width ≤ 64) (w : Workspace) (module : Nat)
    (ref : Option Ref) (elem : TypeExpr) :
    (ofType w module (.node .int width ref elem)).keywords =
      [keyword "type" "integer", ("minimum", .int .int64 (leastWord width).toInt),
        ("maximum", .int .int64 (greatestWord width).toInt)] := by
  rw [toInt_leastWord hpos hwidth, toInt_greatestWord hpos hwidth]
  rfl

end Schema

/-- Every word of 64 bits is one. -/
theorem fitsSigned_toInt (x : BitVec 64) : fitsSigned 64 x.toInt = true := by
  have hlow := x.le_toInt
  have hhigh := x.toInt_lt
  rw [fitsSigned_iff]
  omega

/-! ## Constants -/

namespace Decl

/-- **A group of integer constants** of a width, with nothing wrong about
it but that the constants may not fit. -/
structure IsIntegerGroup (d : Decl) (width : Nat) (cs : List Const) : Prop where
  extend : d.extend = []
  body : ∃ ref elem, d.body = .consts (.node .int width ref elem) cs
  isIdent : ∀ c ∈ cs, isIdent c.name = true
  nodup : (cs.map (·.name)).Nodup
  isWord : ∀ c ∈ cs, ∃ x : BitVec 64, c.value = .int .int64 x.toInt

variable {d : Decl} {module : Text} {width : Nat} {cs : List Const}

theorem valueErrors_eq_nil_iff (hwidth : width ∈ [8, 16, 32, 64]) {type : TypeExpr} {c : Const}
    {x : BitVec 64} (hvalue : c.value = .int .int64 x.toInt) :
    d.valueErrors module true width type c = [] ↔ Schema.Bounds width x := by
  have hbounds := width_bounds hwidth
  rw [Schema.bounds_iff_inRange hbounds.1 hbounds.2,
    ← fitsWidth_iff_inRange hwidth (fitsSigned_toInt x), valueErrors, hvalue]
  cases hfit : fitsWidth x.toInt width <;> simp [hfit]

/-- **A group is accepted** if and only if its constants are between the
bounds. -/
theorem errors_eq_nil_iff_bounds (hwidth : width ∈ [8, 16, 32, 64])
    (hgroup : d.IsIntegerGroup width cs) : d.errors module = [] ↔
      ∀ c ∈ cs, ∀ x : BitVec 64, c.value = .int .int64 x.toInt → Schema.Bounds width x := by
  obtain ⟨ref, elem, hbody⟩ := hgroup.body
  have htype : (TypeExpr.node .int width ref elem).defect? = none := by
    simp only [List.mem_cons, List.not_mem_nil, or_false] at hwidth
    rcases hwidth with rfl | rfl | rfl | rfl
    all_goals rfl
  simp only [errors, hgroup.extend, hbody, constErrors, typeErrors, htype]
  rw [List.append_eq_nil_iff, checkNames_eq_nil_iff]
  constructor
  · rintro ⟨-, -, -, -, h⟩ c hc x hx
    exact (valueErrors_eq_nil_iff hwidth hx).mp (h c hc)
  · intro h
    refine ⟨by simp, hgroup.isIdent, hgroup.nodup, by simp, fun c hc => ?_⟩
    obtain ⟨x, hx⟩ := hgroup.isWord c hc
    exact (valueErrors_eq_nil_iff hwidth hx).mpr (h c hc x hx)

end Decl

/-! ## Decoding -/

namespace Value

variable {width : Nat} {k : IntKind} {x : BitVec 64}

/-- A word is read whole, whatever its kind. -/
theorem toInt64_word : (int k x.toInt).toInt64 = .ok x.toInt := by
  cases k with
  | uint | uint64 => rw [toInt64, if_pos (fitsSigned_toInt x)]
  | _ => rfl

/-- **A word is read as itself** if it is between the bounds. -/
theorem toInt_word_iff (hwidth : width ∈ [8, 16, 32, 64]) :
    (int k x.toInt).toInt width = .ok x.toInt ↔ Schema.Bounds width x := by
  have hbounds := width_bounds hwidth
  rw [toInt_eq_ok_iff, toInt64_word, Schema.bounds_iff_inRange hbounds.1 hbounds.2]
  exact and_iff_right rfl

/-- **Any other word is refused**, for it is past the width. -/
theorem toInt_word_error (hwidth : width ∈ [8, 16, 32, 64]) (h : ¬ Schema.Bounds width x) :
    (int k x.toInt).toInt width =
      .error (.numeric (Text.ofInt x.toInt ++ " overflows " ++ (IntKind.signed width).name)) := by
  have hbounds := width_bounds hwidth
  rw [Schema.bounds_iff_inRange hbounds.1 hbounds.2, ← fitsSigned_iff_inRange] at h
  rw [toInt, toInt64_word]
  exact if_neg h

/-- **And so it is cut down** to a word of the width that stands for the
same integer. -/
theorem toWord_word_iff (hwidth : width ∈ [8, 16, 32, 64]) (hheld : k.holds x.toInt = true) :
    (∃ y, (int k x.toInt).toWord width = .ok y ∧ y.toInt = x.toInt) ↔
      Schema.Bounds width x := by
  have hbounds := width_bounds hwidth
  rw [toWord_eq (held_int hheld) hbounds.1 hbounds.2]
  constructor
  · rintro ⟨y, hy, -⟩
    cases hread : (int k x.toInt).toInt width with
    | error e =>
      rw [hread] at hy
      cases hy
    | ok n =>
      -- what was read is the word itself
      have hsame := Except.ok.inj (toInt64_word.symm.trans (toInt_eq_ok_iff.mp hread).1)
      rw [← hsame] at hread
      exact (toInt_word_iff hwidth).mp hread
  · intro h
    have hfit := fitsSigned_iff_inRange.mpr
      ((Schema.bounds_iff_inRange hbounds.1 hbounds.2).mp h)
    rw [(toInt_word_iff hwidth).mpr h]
    exact ⟨_, rfl, toInt_ofInt_of_fitsSigned hbounds.1 hfit⟩

end Value

/-- **The range of an integer type is the same everywhere**: for the
constants of a group, for the decoder, by value and in words, and in the
keywords of the schema, which are the bounds themselves. -/
theorem integer_range_agrees {width : Nat} (hwidth : width ∈ [8, 16, 32, 64]) :
    (∀ (module : Text) (d : Decl) (cs : List Const), d.IsIntegerGroup width cs →
      (d.errors module = [] ↔
        ∀ c ∈ cs, ∀ x : BitVec 64, c.value = .int .int64 x.toInt → Schema.Bounds width x)) ∧
    (∀ (k : IntKind) (x : BitVec 64), k.holds x.toInt = true →
      ((Value.int k x.toInt).toInt width = .ok x.toInt ↔ Schema.Bounds width x) ∧
      ((∃ y, (Value.int k x.toInt).toWord width = .ok y ∧ y.toInt = x.toInt) ↔
        Schema.Bounds width x) ∧
      (¬ Schema.Bounds width x → ∃ e, (Value.int k x.toInt).toInt width = .error e ∧
        (Value.int k x.toInt).toWord width = .error e)) ∧
    (∀ (w : Workspace) (module : Nat) (ref : Option Ref) (elem : TypeExpr),
      (Schema.ofType w module (.node .int width ref elem)).keywords =
        [Schema.keyword "type" "integer",
          ("minimum", .int .int64 (Schema.leastWord width).toInt),
          ("maximum", .int .int64 (Schema.greatestWord width).toInt)]) := by
  have hbounds := width_bounds hwidth
  refine ⟨fun module d cs hgroup => Decl.errors_eq_nil_iff_bounds hwidth hgroup,
    fun k x hheld => ⟨Value.toInt_word_iff hwidth, Value.toWord_word_iff hwidth hheld,
      fun h => ⟨_, Value.toInt_word_error hwidth h, ?_⟩⟩,
    Schema.keywords_ofType_int hbounds.1 hbounds.2⟩
  rw [Value.toWord_eq (Value.held_int hheld) hbounds.1 hbounds.2,
    Value.toInt_word_error hwidth h, Except.map]

namespace Sample

/-- The greatest integer of 8 bits. -/
def last : Const := { name := "Last", value := .int .int64 127 }

/-- The integer after it. -/
def past : Const := { name := "Past", value := .int .int64 128 }

/-- A group of constants of 8 bits. -/
def limits (cs : List Const) : Decl :=
  { name := "Limits", body := .consts (.node .int 8 none .missing) cs }

theorem isIntegerGroup_limits : (limits [last]).IsIntegerGroup 8 [last] ∧
    (limits [last, past]).IsIntegerGroup 8 [last, past] := by
  have hlast : ∃ x : BitVec 64, last.value = .int .int64 x.toInt := ⟨127, rfl⟩
  have hpast : ∃ x : BitVec 64, past.value = .int .int64 x.toInt := ⟨128, rfl⟩
  exact ⟨⟨rfl, ⟨_, _, rfl⟩, by decide, by decide, by simpa using hlast⟩,
    ⟨rfl, ⟨_, _, rfl⟩, by decide, by decide, by simpa using ⟨hlast, hpast⟩⟩⟩

/-- **The edge of the integers of 8 bits**: the integer after the greatest
one is refused as a constant and by the decoder, and the schema ends before
it. -/
theorem limits_judged :
    (limits [last]).errors "sizes" = [] ∧ (limits [last, past]).errors "sizes" ≠ [] ∧
    (Value.int .int64 127).toInt 8 = .ok 127 ∧ (∃ e, (Value.int .int64 128).toInt 8 = .error e) ∧
    (Schema.ofType [] 0 (.node .int 8 none .missing)).keywords =
      [Schema.keyword "type" "integer", ("minimum", .int .int64 (-128)),
        ("maximum", .int .int64 127)] := by
  have hwidth : 8 ∈ [8, 16, 32, 64] := by decide
  have hlast : Schema.Bounds 8 127 := by decide
  have hpast : ¬ Schema.Bounds 8 128 := by decide
  obtain ⟨hconsts, hdecode, hschema⟩ := integer_range_agrees hwidth
  obtain ⟨e, hrefused, -⟩ := (hdecode .int64 128 (by decide)).2.2 hpast
  refine ⟨(hconsts _ _ _ isIntegerGroup_limits.1).mpr ?_, fun h => ?_,
    (hdecode .int64 127 (by decide)).1.mpr hlast, ⟨e, hrefused⟩, hschema [] 0 none .missing⟩
  · intro c hc x hx
    obtain rfl := List.mem_singleton.mp hc
    rw [last, Value.int.injEq] at hx
    have hword : (127 : BitVec 64) = x := BitVec.toInt_inj.mp hx.2
    rwa [← hword]
  · exact hpast ((hconsts _ _ _ isIntegerGroup_limits.2).mp h past (by simp) 128 rfl)

end Sample

end WireModel
