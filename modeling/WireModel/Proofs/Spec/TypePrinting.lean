import Mathlib
import WireModel.Proofs.Spec.TypeGrammar

/-!
# Written types — printing and reading are inverse

`TypeExpr.toText` writes a type without white space. For the types that
can be built of scalars, composites and names (`TypeExpr.IsBuilt`) this
is a text that the grammar derives the type from, so it is read back.
Conversely a text that is read writes the type up to its white space
(`TypeExpr.Writes.withoutBlanks`). `TypeExpr.parse_inverse` puts the two
together.
-/

namespace WireModel

namespace TypeExpr

open Text

/-- **The types that can be built**: scalars, integers of a supported
width, composites of such types, and references by names that are no
reserved words. With an alias in front a reserved word is a name too. -/
inductive IsBuilt : TypeExpr → Prop
  | scalar {k : Kind} (hk : k ∈ [Kind.bool, .bigint, .decimal, .string, .bytes, .json]) :
      IsBuilt (scalar k)
  | int {width : Int} (hw : width = 8 ∨ width = 16 ∨ width = 32 ∨ width = 64) :
      IsBuilt (int width)
  | float : IsBuilt float
  | list {elem : TypeExpr} (h : IsBuilt elem) : IsBuilt (list elem)
  | map {elem : TypeExpr} (h : IsBuilt elem) : IsBuilt (map elem)
  | optional {elem : TypeExpr} (h : IsBuilt elem) : IsBuilt (optional elem)
  | name {word : Text} (h : IsName word) (hfree : ¬ IsReserved word) : IsBuilt (ref [] word)
  | qualified {ns word : Text} (hns : IsName ns) (h : IsName word) : IsBuilt (ref ns word)

/-! ## Printing -/

theorem toText_name (word : Text) : (ref [] word).toText = word := rfl

theorem toText_qualified {ns word : Text} (hns : IsName ns) :
    (ref ns word).toText = ns ++ ['.'.toUInt8] ++ word := by
  have hne : ¬ (ns == []) = true := by simpa using hns.1
  rw [ref, toText, Ref.toText, if_neg hne]
  rfl

/-- A scalar is printed as its name. -/
theorem ScalarName.toText {word : Text} {t : TypeExpr} (h : ScalarName word t) :
    t.toText = word := by
  cases h <;> decide

/-- A composite is printed as its name and its item in brackets. -/
theorem CompositeName.toText {word : Text} {k : Kind} (h : CompositeName word k)
    (elem : TypeExpr) :
    (node k 0 none elem).toText = word ++ ['['.toUInt8] ++ elem.toText ++ [']'.toUInt8] := by
  cases h <;> rfl

theorem writes_composite {word inner : Text} {k : Kind} {elem : TypeExpr}
    (h : CompositeName word k) (helem : Writes inner elem) :
    Writes (word ++ ['['.toUInt8] ++ inner ++ [']'.toUInt8]) (node k 0 none elem) := by
  simpa using Writes.composite h isBlanks_nil isBlanks_nil isBlanks_nil helem

/-- **What is printed is in the grammar.** -/
theorem writes_toText {t : TypeExpr} (h : IsBuilt t) : Writes t.toText t := by
  have hscalar : ∀ {word t}, ScalarName word t → Writes t.toText t := by
    intro word t h
    rw [h.toText]
    exact .scalar h
  have hcomposite : ∀ {word k elem}, CompositeName word k → Writes elem.toText elem →
      Writes (node k 0 none elem).toText (node k 0 none elem) := by
    intro word k elem h helem
    rw [h.toText]
    exact writes_composite h helem
  induction h with
  | scalar hk =>
    fin_cases hk
    · exact hscalar .bool
    · exact hscalar .bigint
    · exact hscalar .decimal
    · exact hscalar .string
    · exact hscalar .bytes
    · exact hscalar .json
  | int hw =>
    rcases hw with rfl | rfl | rfl | rfl
    · exact hscalar .i8
    · exact hscalar .i16
    · exact hscalar .i32
    · exact hscalar .i64
  | float => exact hscalar .f64
  | list _ ih => exact hcomposite .list ih
  | map _ ih => exact hcomposite .map ih
  | optional _ ih => exact hcomposite .optional ih
  | name h hfree =>
    rw [toText_name]
    exact .name h hfree
  | qualified hns h =>
    rw [toText_qualified hns]
    exact .qualified hns h

/-- A text without white space around it derives what it writes. -/
theorem Writes.derives {inner : Text} {t : TypeExpr} (h : Writes inner t) : Derives inner t :=
  ⟨[], inner, [], isBlanks_nil, h, isBlanks_nil, by simp⟩

/-! ## Reading -/

theorem isBuilt_of_writes {inner : Text} {t : TypeExpr} (h : Writes inner t) : IsBuilt t := by
  induction h with
  | scalar h =>
    cases h with
    | i8 => exact .int (by simp)
    | i16 => exact .int (by simp)
    | i32 => exact .int (by simp)
    | i64 => exact .int (by simp)
    | f64 => exact .float
    | _ => exact .scalar (by simp)
  | composite h _ _ _ _ ih =>
    cases h with
    | list => exact .list ih
    | map => exact .map ih
    | optional => exact .optional ih
  | name h hfree => exact .name h hfree
  | qualified hns h => exact .qualified hns h

/-- **What was written is printed without its white space.** -/
theorem Writes.withoutBlanks {inner : Text} {t : TypeExpr} (h : Writes inner t) :
    inner.withoutBlanks = t.toText := by
  have hword : ∀ {word : Text}, (∀ b ∈ word, isWordByte b = true) → word.withoutBlanks = word :=
    fun hw => withoutBlanks_of_isVisible fun b hb => isVisible_of_isWordByte (hw b hb)
  have hbracket : ∀ {b : UInt8}, IsVisible b → IsWhole [b] ∧ Text.withoutBlanks [b] = [b] :=
    fun hb => ⟨isWhole_of_lt (List.forall_mem_singleton.mpr hb.1),
      withoutBlanks_of_isVisible (List.forall_mem_singleton.mpr hb)⟩
  induction h with
  | scalar h =>
    rw [h.toText]
    exact hword (IsReserved.isName (Or.inl ⟨_, h⟩)).isWordByte
  | composite h hgap hinside hlast helem ih =>
    have hname := IsReserved.isName (Or.inr ⟨_, h⟩)
    have hwhole := isWhole_of_lt fun b hb => (isVisible_of_isWordByte (hname.isWordByte b hb)).1
    obtain ⟨hopen, hopenEq⟩ := hbracket (b := '['.toUInt8) ⟨by decide, by decide⟩
    obtain ⟨hclose, hcloseEq⟩ := hbracket (b := ']'.toUInt8) ⟨by decide, by decide⟩
    simp only [List.append_assoc, hwhole.withoutBlanks_append, hgap.isWhole.withoutBlanks_append,
      hopen.withoutBlanks_append, hinside.isWhole.withoutBlanks_append,
      helem.isTight.whole.withoutBlanks_append, hlast.isWhole.withoutBlanks_append,
      hgap.withoutBlanks, hinside.withoutBlanks, hlast.withoutBlanks, hword hname.isWordByte,
      hopenEq, hcloseEq, ih, h.toText, List.nil_append]
  | name h hfree => exact hword h.isWordByte
  | qualified hns h =>
    rw [toText_qualified hns]
    refine withoutBlanks_of_isVisible fun b hb => ?_
    simp only [List.mem_append, List.mem_singleton] at hb
    rcases hb with (hb | rfl) | hb
    · exact isVisible_of_isWordByte (hns.isWordByte b hb)
    · exact ⟨by decide, by decide⟩
    · exact isVisible_of_isWordByte (h.isWordByte b hb)

/-- **Printing and reading are inverse.** A type that can be built is read
back from what it is printed as. A text that is read as a type is, without
its white space, what the type is printed as, and that is read as the same
type again. -/
theorem parse_inverse : (∀ t, IsBuilt t → parse t.toText = .ok t) ∧
    ∀ s t, parse s = .ok t → t.toText = s.withoutBlanks ∧ parse t.toText = .ok t := by
  have hback : ∀ t, IsBuilt t → parse t.toText = .ok t :=
    fun t h => parse_of_derives (writes_toText h).derives
  refine ⟨hback, fun s t h => ?_⟩
  obtain ⟨before, inner, after, hbefore, hinner, hafter, rfl⟩ := derives_of_parse h
  refine ⟨?_, hback t (isBuilt_of_writes hinner)⟩
  rw [List.append_assoc, hbefore.isWhole.withoutBlanks_append,
    hinner.isTight.whole.withoutBlanks_append, hbefore.withoutBlanks, hafter.withoutBlanks,
    hinner.withoutBlanks, List.nil_append, List.append_nil]

/-- A mapping of lists comes back, also from a text with an em space and
blanks between its parts. -/
theorem spaced_type_comes_back :
    IsBuilt (map (list (ref "base" "Id"))) ∧
      parse (map (list (ref "base" "Id"))).toText = .ok (map (list (ref "base" "Id"))) ∧
      parse " map[\u2003list [ base.Id] ]\n" = .ok (map (list (ref "base" "Id"))) ∧
      (map (list (ref "base" "Id"))).toText =
        withoutBlanks " map[\u2003list [ base.Id] ]\n" ∧
      parse (map (list (ref "base" "Id"))).toText = .ok (map (list (ref "base" "Id"))) := by
  have hbuilt : IsBuilt (map (list (ref "base" "Id"))) :=
    .map (.list (.qualified (isName_of_all (by decide) (by decide))
      (isName_of_all (by decide) (by decide))))
  have hread : parse " map[\u2003list [ base.Id] ]\n" = .ok (map (list (ref "base" "Id"))) := by
    with_unfolding_all rfl
  exact ⟨hbuilt, parse_inverse.1 _ hbuilt, hread, parse_inverse.2 _ _ hread⟩

end TypeExpr

end WireModel
