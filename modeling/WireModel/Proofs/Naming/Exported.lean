import WireModel.Naming.Identifier
import WireModel.Proofs.Spec.Validate
import WireModel.Proofs.Text.Case
import WireModel.Proofs.Text.Cut

/-!
# Exported identifiers — what becomes of the names of a spec

The name of a spec is cut into words, and the words are put together
again with a capital in front of each. What comes out begins with the
capital of the first byte that is no underscore (`Naming.head?_pascal`),
and all of it are letters and digits. So it is an identifier that can be
exported if and only if that byte is a letter
(`Naming.isExported_pascal_iff`): a name may be underscores alone, or have
a digit after those it starts with.
-/

namespace WireModel

namespace Naming

open Text (isLetter isDigit isUpper isWordByte upperByte capital)

/-- An underscore. -/
abbrev underscore : UInt8 := '_'.toUInt8

/-- **An exported identifier**: a capital, and letters and digits behind
it. -/
def IsExported (t : Text) : Prop :=
  ∃ b bs, t = b :: bs ∧ isUpper b = true ∧ ∀ c ∈ bs, isWordByte c = true

/-! ## Words of identifiers -/

variable {acronyms : List Text} {b : UInt8} {t word : Text}

/-- Letters and digits stand inside words, and underscores between them. -/
theorem isSeparator_toNat (h : isWordByte b = true ∨ b = underscore) :
    isSeparator (.code b.toNat) = (b == underscore) := by
  rcases h with h | rfl
  · have hne : b ≠ underscore := by
      rintro rfl
      revert h
      decide
    rw [beq_eq_false_iff_ne.mpr hne]
    rw [Text.isWordByte_iff, Text.isLetter_iff, Text.isDigit_iff] at h
    simp only [isSeparator, Rune.isBlankCode, Bool.or_eq_false_iff, Bool.and_eq_false_iff,
      beq_eq_false_iff_ne, decide_eq_false_iff_not]
    have hcodes : '_'.toNat = 95 ∧ '-'.toNat = 45 ∧ '.'.toNat = 46 ∧ '/'.toNat = 47 := by decide
    omega
  · decide

/-- **An identifier is cut at its underscores.** -/
theorem words_eq_splitOn (h : ∀ b ∈ t, isWordByte b = true ∨ b = underscore) :
    words t = (t.splitOn underscore).filter (· != []) := by
  have hruns : Text.fieldsBy.go isSeparator t.runes = t.splitOn underscore := by
    induction t with
    | nil => rfl
    | cons b t ih =>
      obtain ⟨hb, ht⟩ := List.forall_mem_cons.mp h
      have hlt : b.toNat < 0x80 := by
        rcases hb with hb | rfl
        · exact Text.lt_of_isWordByte hb
        · decide
      rw [Text.runes_cons_of_lt hlt, Text.fieldsBy.go, Text.splitOn, ih ht, isSeparator_toNat hb,
        Rune.bytes, Text.ofRune_one hlt]
      rfl
  rw [words, Text.fieldsBy, hruns]

/-- Its words are of letters and digits. -/
theorem isWordByte_of_mem_words (h : ∀ b ∈ t, isWordByte b = true ∨ b = underscore)
    (hword : word ∈ words t) : ∀ b ∈ word, isWordByte b = true := by
  rw [words_eq_splitOn h] at hword
  have hpart := (List.mem_filter.mp hword).1
  intro b hb
  have hmem := Text.mem_of_mem_splitOn hpart hb
  exact (h b hmem).resolve_right fun hsep => Text.not_mem_of_mem_splitOn hpart (hsep ▸ hb)

/-- **The first word** begins where the identifier does, after the
underscores in front. -/
theorem exists_words_cons (h : ∀ b ∈ t, isWordByte b = true ∨ b = underscore)
    (hb : isWordByte b = true) : ∃ word rest, words (b :: t) = (b :: word) :: rest := by
  have hne : b ≠ underscore := by
    rintro rfl
    revert hb
    decide
  obtain ⟨part, parts, hsplit⟩ := Text.exists_splitOn_eq_cons underscore t
  rw [words_eq_splitOn (List.forall_mem_cons.mpr ⟨Or.inl hb, h⟩),
    Text.splitOn_cons_of_ne hne hsplit]
  exact ⟨part, parts.filter (· != []), by simp⟩

theorem words_underscore (h : ∀ b ∈ t, isWordByte b = true ∨ b = underscore) :
    words (underscore :: t) = words t := by
  rw [words_eq_splitOn h, words_eq_splitOn (List.forall_mem_cons.mpr ⟨Or.inr rfl, h⟩)]
  simp

/-! ## Exported identifiers -/

/-- A word inside an identifier, letter by letter. -/
theorem pascalWord_eq (h : ∀ b ∈ word, isWordByte b = true) : pascalWord acronyms word =
    if acronyms.contains (word.map upperByte) then word.map upperByte else capital word := by
  rw [pascalWord, isAcronym, Text.toUpper_eq_map h, Text.toTitle_eq_capital h]

/-- **The exported identifier**, letter by letter. -/
theorem pascal_eq (h : ∀ b ∈ t, isWordByte b = true ∨ b = underscore) : pascal acronyms t =
    ((t.splitOn underscore).filter (· != [])).flatMap fun word =>
      if acronyms.contains (word.map upperByte) then word.map upperByte else capital word := by
  rw [pascal, ← words_eq_splitOn h]
  exact List.flatMap_congr fun word hword => pascalWord_eq (isWordByte_of_mem_words h hword)

/-- The same by a test of all bytes. -/
theorem pascal_eq_of_all (h : t.all (fun b => isWordByte b || b == underscore) = true) :
    pascal acronyms t = ((t.splitOn underscore).filter (· != [])).flatMap fun word =>
      if acronyms.contains (word.map upperByte) then word.map upperByte else capital word :=
  pascal_eq fun b hb => by simpa using List.all_eq_true.mp h b hb

theorem isWordByte_of_mem_pascalWord (h : ∀ b ∈ word, isWordByte b = true) :
    ∀ b ∈ pascalWord acronyms word, isWordByte b = true := by
  rw [pascalWord_eq h]
  split
  · intro b hb
    obtain ⟨c, hc, rfl⟩ := List.mem_map.mp hb
    exact Text.isWordByte_upperByte (h c hc)
  · exact Text.isWordByte_of_mem_capital h

/-- A word begins with a capital, if it begins with a letter. -/
theorem exists_pascalWord_cons (h : ∀ c ∈ b :: word, isWordByte c = true) :
    ∃ rest, pascalWord acronyms (b :: word) = upperByte b :: rest := by
  rw [pascalWord_eq h, capital]
  split
  · exact ⟨_, rfl⟩
  · split
    · exact ⟨_, rfl⟩
    · rename_i hletter
      have hdigit := (Text.isWordByte_iff.mp (h b List.mem_cons_self)).resolve_left hletter
      rw [Text.upperByte_of_isDigit hdigit]
      exact ⟨_, rfl⟩

theorem isWordByte_of_mem_pascal (h : ∀ b ∈ t, isWordByte b = true ∨ b = underscore) :
    ∀ b ∈ pascal acronyms t, isWordByte b = true := by
  intro b hb
  obtain ⟨word, hword, hb⟩ := List.mem_flatMap.mp hb
  exact isWordByte_of_mem_pascalWord (isWordByte_of_mem_words h hword) b hb

/-- **What comes out begins** with the capital of the first byte that is no
underscore. -/
theorem head?_pascal (h : ∀ b ∈ t, isWordByte b = true ∨ b = underscore) :
    (pascal acronyms t).head? = (t.dropWhile (· == underscore)).head?.map upperByte := by
  induction t with
  | nil => rfl
  | cons b t ih =>
    obtain ⟨hb, ht⟩ := List.forall_mem_cons.mp h
    by_cases hsep : b = underscore
    · rw [hsep, pascal, words_underscore ht, ← pascal, ih ht]
      rfl
    · have hb := hb.resolve_right hsep
      obtain ⟨word, rest, hwords⟩ := exists_words_cons ht hb
      have hword := isWordByte_of_mem_words h (hwords ▸ List.mem_cons_self)
      obtain ⟨tail, htail⟩ : ∃ tail, pascalWord acronyms (b :: word) = upperByte b :: tail :=
        exists_pascalWord_cons hword
      rw [pascal, hwords, List.flatMap_cons, htail,
        List.dropWhile_cons_of_neg (by simpa using hsep)]
      rfl

/-- **Which names of a spec can be exported**: those whose first byte that
is no underscore is a letter. The others become the empty text or begin
with a digit; letters and digits are all that they hold. -/
theorem isExported_pascal_iff (acronyms : List Text) {name : Text} (h : isIdent name = true) :
    (∀ b ∈ pascal acronyms name, isLetter b = true ∨ isDigit b = true) ∧
    (IsExported (pascal acronyms name) ↔
      ∃ b ∈ (name.dropWhile (· == underscore)).head?, isLetter b = true) := by
  have hbytes : ∀ b ∈ name, isWordByte b = true ∨ b = underscore := by
    intro b hb
    rw [Text.isWordByte_iff, or_assoc]
    exact of_mem_isIdent h hb
  have hword : ∀ b ∈ pascal acronyms name, isWordByte b = true := isWordByte_of_mem_pascal hbytes
  have hhead : (pascal acronyms name).head? =
      (name.dropWhile (· == underscore)).head?.map upperByte := head?_pascal hbytes
  refine ⟨fun b hb => Text.isWordByte_iff.mp (hword b hb), ?_, ?_⟩
  · rintro ⟨b, bs, heq, hupper, -⟩
    rw [heq, List.head?_cons, eq_comm, Option.map_eq_some_iff] at hhead
    obtain ⟨c, hc, rfl⟩ := hhead
    rw [Text.isUpper_upperByte] at hupper
    exact ⟨c, hc, hupper⟩
  · rintro ⟨b, hb, hletter⟩
    rw [hb, Option.map_some] at hhead
    obtain ⟨bs, hpascal⟩ := List.head?_eq_some_iff.mp hhead
    rw [hpascal] at hword ⊢
    rw [← Text.isUpper_upperByte] at hletter
    exact ⟨_, bs, rfl, hletter, fun c hc => hword c (List.mem_cons_of_mem _ hc)⟩

namespace Sample

/-- **Two names that cannot be exported**: nothing is left of an underscore
alone, and of one in front of a digit the digit. -/
theorem not_isExported_pascal :
    (isIdent "_" = true ∧ ¬ IsExported (pascal commonAcronyms "_")) ∧
    (isIdent "_1" = true ∧ ¬ IsExported (pascal commonAcronyms "_1")) := by
  have hnothing : (pascal commonAcronyms "_").head? = none :=
    head?_pascal (List.forall_mem_singleton.mpr (Or.inr rfl))
  have hdigit : (pascal commonAcronyms "_1").head? = some '1'.toUInt8 :=
    head?_pascal (List.forall_mem_cons.mpr ⟨Or.inr rfl,
      List.forall_mem_singleton.mpr (Or.inl rfl)⟩)
  refine ⟨⟨by decide, ?_⟩, ⟨by decide, ?_⟩⟩
  · rintro ⟨b, bs, heq, -⟩
    rw [heq] at hnothing
    cases hnothing
  · rintro ⟨b, bs, heq, hupper, -⟩
    rw [heq, List.head?_cons, Option.some_inj] at hdigit
    rw [hdigit] at hupper
    revert hupper
    decide

/-- An underscore in front of a letter does no harm. -/
theorem isExported_id : IsExported (pascal commonAcronyms "_user_id") :=
  (isExported_pascal_iff commonAcronyms (by decide)).2.mpr ⟨'u'.toUInt8, by decide, by decide⟩

end Sample

end Naming

end WireModel
