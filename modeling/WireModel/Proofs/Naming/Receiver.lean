import WireModel.Proofs.Naming.Exported
import WireModel.Proofs.Spec.WellFormed

/-!
# Receivers — what the methods of a type call their value

A receiver is named by the initials of the words of its type. All of them
are letters, so it is an identifier, and a word of the language is set
apart by an underscore. Nothing sets it apart from the types that the
bodies name (`Naming.bodyTypes`): it hides one of them exactly if the
initials spell it (`Naming.receiver_pascal_spec`), and there are names with
any initials one likes (`Naming.exists_receiver_eq`).
-/

namespace WireModel

namespace Naming

open Text (isLetter isDigit isUpper isLower isWordByte lowerByte upperByte)

/-- The types that the bodies of generated methods name. -/
def bodyTypes : List Text := ["any", "bool", "byte", "string"]

/-! ## Initials -/

/-- Whether a byte opens a word between the byte before and the byte after
it: a capital does after a small letter, or in front of one when the word
before has two letters. -/
def opensWord (prev : UInt8) (single : Bool) (b next : UInt8) : Bool :=
  isUpper b && (isLower prev || (!single && isLower next && isLetter prev))

/-- The small letters of what opens words behind the first one. -/
def initialsAfter : (prev : UInt8) → (single : Bool) → Text → Text
  | _, _, [] => []
  | _, _, [_] => []
  | prev, single, b :: next :: rest =>
    if opensWord prev single b next then lowerByte b :: initialsAfter b true (next :: rest)
    else initialsAfter b false (next :: rest)

/-- **The initials** of an identifier, in small letters. -/
def initials : Text → Text
  | [] => []
  | b :: bs => lowerByte b :: initialsAfter b true bs

variable {b prev next : UInt8} {single : Bool} {t w head : Text}

theorem isLower_lowerByte (h : isLetter b = true) : isLower (lowerByte b) = true := by
  by_cases hup : isUpper b = true
  · have hbounds := Text.isUpper_iff.mp hup
    rw [Text.isLower_iff, Text.toNat_lowerByte hup]
    omega
  · rw [isLetter, Bool.or_eq_true] at h
    rw [lowerByte, if_neg hup]
    exact h.resolve_right hup

theorem isLower_of_mem_initialsAfter :
    ∀ c ∈ initialsAfter prev single t, isLower c = true := by
  fun_induction initialsAfter prev single t with
  | case1 => simp
  | case2 => simp
  | case3 prev single b next rest hopens ih =>
    rw [opensWord, Bool.and_eq_true] at hopens
    have hb : isLetter b = true := by rw [isLetter, hopens.1, Bool.or_true]
    exact List.forall_mem_cons.mpr ⟨isLower_lowerByte hb, ih⟩
  | case4 prev single b next rest hopens ih => exact ih

/-- The initials of what begins with a letter are small letters. -/
theorem isLower_of_mem_initials (hb : isLetter b = true) :
    ∀ c ∈ initials (b :: t), isLower c = true :=
  List.forall_mem_cons.mpr ⟨isLower_lowerByte hb, isLower_of_mem_initialsAfter⟩

/-! ## Words

The words of an identifier are found by the underscores that are put in
front of them. No other underscores get in, so the first bytes of what
stands between them are the initials. -/

theorem lowerLetter_eq (h : b.toNat < 0x80) : lowerLetter b = [lowerByte b] := by
  rw [lowerLetter, Text.lowerRune_toNat h, Text.ofRune_one (Text.lt_lowerByte h)]

theorem not_le_of_lt {bound : UInt8} (h : b.toNat < 0x80) (hbound : 0x80 ≤ bound.toNat) :
    ¬ bound ≤ b := by
  rw [UInt8.le_iff_toNat_le]
  omega

theorem isUpperByte_eq (h : b.toNat < 0x80) : isUpperByte b = isUpper b := by
  have hle : ¬ 0xC0 ≤ b := not_le_of_lt h (by decide)
  simp [isUpperByte, hle]

theorem isLowerByte_eq (h : b.toNat < 0x80) : isLowerByte b = isLower b := by
  have hne : b ≠ 0xB5 := by
    rintro rfl
    exact absurd h (by decide)
  have hle : ¬ 0xDF ≤ b := not_le_of_lt h (by decide)
  simp [isLowerByte, hne, hle]

theorem isLetterByte_eq (h : b.toNat < 0x80) : isLetterByte b = isLetter b := by
  have hne : b ≠ 0xAA ∧ b ≠ 0xBA := by
    constructor <;> rintro rfl <;> exact absurd h (by decide)
  rw [isLetterByte, isUpperByte_eq h, isLowerByte_eq h, Bool.or_comm (isUpper b), ← isLetter,
    beq_eq_false_iff_ne.mpr hne.1, beq_eq_false_iff_ne.mpr hne.2, Bool.or_false, Bool.or_false]

theorem lowerByte_ne_underscore (h : isWordByte b = true) : underscore ≠ lowerByte b := by
  intro heq
  by_cases hup : isUpper b = true
  · have hlower := isLower_lowerByte (b := b) (by rw [isLetter, hup, Bool.or_true])
    rw [← heq] at hlower
    revert hlower
    decide
  · rw [lowerByte, if_neg hup] at heq
    rw [← heq] at h
    revert h
    decide

/-- One step of cutting an identifier into words. -/
theorem snakeRest_cons_cons {rest : Text} (hprev : isWordByte prev = true)
    (hb : isWordByte b = true) (hnext : isWordByte next = true) :
    snakeRest prev single (b :: next :: rest) =
      if opensWord prev single b next then
        underscore :: lowerByte b :: snakeRest b true (next :: rest)
      else lowerByte b :: snakeRest b false (next :: rest) := by
  have hlt := Text.lt_of_isWordByte hb
  have hprev := Text.lt_of_isWordByte hprev
  rw [snakeRest, isUpperByte_eq hlt, isLowerByte_eq hprev, isLetterByte_eq hprev,
    isLowerByte_eq (Text.lt_of_isWordByte hnext), lowerLetter_eq hlt, opensWord]
  rfl

/-- A letter more does not change how a word begins. -/
theorem grow_word {c : UInt8} (hc : isWordByte c = true) (hne : head ≠ [])
    (hhead : underscore ∉ head) : underscore ∉ head ++ [lowerByte c] ∧
      (head ++ [lowerByte c]).take 1 = head.take 1 := by
  refine ⟨by simp [hhead, lowerByte_ne_underscore hc], ?_⟩
  rw [List.take_append_of_le_length (List.length_pos_of_ne_nil hne)]

/-- **The first bytes of the words** of an identifier are its initials. -/
theorem flatMap_take_splitOn_snakeRest (hprev : isWordByte prev = true)
    (ht : ∀ c ∈ t, isWordByte c = true) (hne : head ≠ []) (hhead : underscore ∉ head) :
    ((head ++ snakeRest prev single t).splitOn underscore).flatMap (·.take 1) =
      head.take 1 ++ initialsAfter prev single t := by
  fun_induction initialsAfter prev single t generalizing head with
  | case1 prev single => simp [snakeRest, Text.splitOn_of_not_mem hhead]
  | case2 prev single b =>
    have hb := ht b List.mem_cons_self
    obtain ⟨hnot, htake⟩ := grow_word hb hne hhead
    rw [snakeRest, lowerLetter_eq (Text.lt_of_isWordByte hb), Text.splitOn_of_not_mem hnot]
    simp [htake]
  | case3 prev single b next rest hopens ih =>
    obtain ⟨hb, hrest⟩ := List.forall_mem_cons.mp ht
    have hnot : underscore ∉ [lowerByte b] := by simpa using lowerByte_ne_underscore hb
    have ih := ih hb hrest (List.cons_ne_nil _ _) hnot
    rw [snakeRest_cons_cons hprev hb (hrest next List.mem_cons_self), if_pos hopens,
      Text.splitOn_append, Text.splitOn_of_not_mem hhead, List.flatMap_append,
      List.flatMap_singleton, ← List.singleton_append, ih]
    rfl
  | case4 prev single b next rest hopens ih =>
    -- the word goes on: what is known of it grows by a letter
    obtain ⟨hb, hrest⟩ := List.forall_mem_cons.mp ht
    obtain ⟨hnot, htake⟩ := grow_word hb hne hhead
    rw [snakeRest_cons_cons hprev hb (hrest next List.mem_cons_self), if_neg hopens,
      List.append_cons, ih hb hrest (by simp) hnot, htake]

theorem flatMap_take_splitOn_snake (ht : ∀ c ∈ t, isWordByte c = true) :
    ((snake t).splitOn underscore).flatMap (·.take 1) = initials t := by
  cases t with
  | nil => rfl
  | cons b t =>
    obtain ⟨hb, ht⟩ := List.forall_mem_cons.mp ht
    rw [snake, lowerLetter_eq (Text.lt_of_isWordByte hb),
      flatMap_take_splitOn_snakeRest hb ht (by simp)
        (by simpa using lowerByte_ne_underscore hb)]
    rfl

/-! ## Receivers -/

/-- A type without the marks at its ends, among them the digits. -/
def stem (type : Text) : Text := type.trimBytes isTypeMark

theorem isTypeMark_of_isLetter (hb : isLetter b = true) : isTypeMark b = false := by
  refine Bool.eq_false_iff.mpr fun h => ?_
  simp only [isTypeMark, Bool.or_eq_true, beq_iff_eq] at h
  rcases h with (((h | rfl) | rfl) | rfl) | rfl
  · rw [Text.isLetter_iff] at hb
    rw [Text.isDigit_iff] at h
    omega
  all_goals exact absurd hb (by decide)

/-- A type that begins with a letter keeps it. -/
theorem exists_stem_cons (hb : isLetter b = true) :
    ∃ rest, stem (b :: t) = b :: rest ∧ rest <+: t := by
  have hmark : isTypeMark b = false := isTypeMark_of_isLetter hb
  have hfront : (b :: t).dropWhile isTypeMark = b :: t := by
    rw [List.dropWhile_cons_of_neg (by simp [hmark])]
  have hkept : stem (b :: t) <+: b :: t := by
    rw [stem, Text.trimBytes, hfront, ← List.reverse_suffix, List.reverse_reverse]
    exact List.dropWhile_suffix _
  have hne : stem (b :: t) ≠ [] := by
    rw [stem, Text.trimBytes, hfront, Ne, List.reverse_eq_nil_iff, List.dropWhile_eq_nil_iff]
    simp [hmark]
  obtain ⟨c, rest, heq⟩ := List.exists_cons_of_ne_nil hne
  rw [heq, List.cons_prefix_cons] at hkept
  exact ⟨rest, hkept.1 ▸ heq, hkept.2⟩

/-- Small letters stay as they are. -/
theorem toLower_of_isLower (h : ∀ c ∈ w, isLower c = true) : w.toLower = w := by
  have hkept : ∀ c ∈ w, c.toNat < 0x80 ∧ lowerByte c = c := by
    intro c hc
    have hbounds := Text.isLower_iff.mp (h c hc)
    have hup : ¬ isUpper c = true := by
      rw [Text.isUpper_iff]
      omega
    exact ⟨by omega, by rw [lowerByte, if_neg hup]⟩
  rw [Text.toLower_eq_map fun c hc => (hkept c hc).1]
  exact (List.map_congr_left fun c hc => (hkept c hc).2).trans (List.map_id' w)

/-- A name that is set apart from the words of the language. -/
def setApart (w : Text) : Text := if w ∈ keywords then underscore :: w else w

/-- **The receiver** of a type that is an identifier: the initials of what
is left of it without the digits at its end. -/
theorem receiver_eq (hb : isLetter b = true) (ht : ∀ c ∈ t, isWordByte c = true) :
    receiver (b :: t) = setApart (initials (stem (b :: t))) := by
  obtain ⟨rest, hstem, hrest⟩ := exists_stem_cons (t := t) hb
  have hword : ∀ c ∈ b :: rest, isWordByte c = true :=
    List.forall_mem_cons.mpr ⟨Text.isWordByte_iff.mpr (Or.inl hb),
      fun c hc => ht c (hrest.subset hc)⟩
  have hname : Text.toLower (((snake (b :: rest)).splitOn underscore).flatMap (·.take 1)) =
      initials (b :: rest) := by
    rw [flatMap_take_splitOn_snake hword, toLower_of_isLower (isLower_of_mem_initials hb)]
  rw [receiver, ← stem, hstem, setApart]
  simp only [hname, List.contains_iff_mem]
  rfl

/-- What is set apart is no word of the language. -/
theorem setApart_not_mem_keywords : setApart w ∉ keywords := by
  rw [setApart]
  split
  · have hnone : ∀ k ∈ keywords, k.head? ≠ some underscore := by decide
    exact fun h => hnone _ h rfl
  · assumption

/-- And small letters set apart are an identifier. -/
theorem isIdentifier_setApart (hne : w ≠ []) (h : ∀ c ∈ w, isLower c = true) :
    IsIdentifier (setApart w) := by
  have hletter : ∀ c ∈ w, isLetter c = true := fun c hc => by
    rw [isLetter, h c hc, Bool.true_or]
  rw [setApart]
  split
  · exact ⟨underscore, w, rfl, Or.inr rfl, fun c hc => Or.inl (hletter c hc)⟩
  · obtain ⟨c, w, rfl⟩ := List.exists_cons_of_ne_nil hne
    exact ⟨c, w, rfl, Or.inl (hletter c List.mem_cons_self),
      fun x hx => Or.inl (hletter x (List.mem_cons_of_mem c hx))⟩

/-- The types that bodies name are not set apart, and nothing that is set
apart is one of them. -/
theorem setApart_mem_bodyTypes_iff : setApart w ∈ bodyTypes ↔ w ∈ bodyTypes := by
  rw [setApart]
  split
  · rename_i hkeyword
    have hapart : ∀ k ∈ keywords, k ∉ bodyTypes := by decide
    have hnone : ∀ x ∈ bodyTypes, x.head? ≠ some underscore := by decide
    exact iff_of_false (fun h => hnone _ h rfl) (hapart w hkeyword)
  · rfl

/-- A type of a spec is a capital with letters and digits behind it, if its
name begins with a letter. -/
theorem exists_pascal_cons {acronyms : List Text} {name : Text} (h : isIdent name = true)
    (hletter : ∃ b ∈ name.head?, isLetter b = true) :
    ∃ b t, pascal acronyms name = b :: t ∧ isLetter b = true ∧ ∀ c ∈ t, isWordByte c = true := by
  have hbytes : ∀ b ∈ name, isWordByte b = true ∨ b = underscore := by
    intro b hb
    rw [Text.isWordByte_iff, or_assoc]
    exact of_mem_isIdent h hb
  obtain ⟨b, hb, hletter⟩ := hletter
  obtain ⟨rest, rfl⟩ := List.head?_eq_some_iff.mp hb
  have hne : b ≠ underscore := by
    rintro rfl
    exact absurd hletter (by decide)
  have hhead : (pascal acronyms (b :: rest)).head? = some (upperByte b) := by
    rw [head?_pascal hbytes, List.dropWhile_cons_of_neg (by simpa using hne)]
    rfl
  obtain ⟨t, ht⟩ := List.head?_eq_some_iff.mp hhead
  have hword : ∀ c ∈ pascal acronyms (b :: rest), isWordByte c = true :=
    isWordByte_of_mem_pascal hbytes
  rw [← Text.isUpper_upperByte] at hletter
  rw [ht] at hword
  refine ⟨upperByte b, t, ht, ?_, fun c hc => hword c (List.mem_cons_of_mem _ hc)⟩
  rw [isLetter, hletter, Bool.or_true]

/-- **What receivers are**, of the types of a spec whose name begins with a
letter: they are identifiers and no words of the language. A receiver hides
a type that bodies name exactly if the initials of its type spell it. -/
theorem receiver_pascal_spec (acronyms : List Text) {name : Text} (h : isIdent name = true)
    (hletter : ∃ b ∈ name.head?, isLetter b = true) :
    IsIdentifier (receiver (pascal acronyms name)) ∧
    receiver (pascal acronyms name) ∉ keywords ∧
    (receiver (pascal acronyms name) ∈ bodyTypes ↔
      initials (stem (pascal acronyms name)) ∈ bodyTypes) := by
  obtain ⟨b, t, hpascal, hb, ht⟩ : ∃ b t, pascal acronyms name = b :: t ∧ isLetter b = true ∧
      ∀ c ∈ t, isWordByte c = true := exists_pascal_cons h hletter
  obtain ⟨rest, hstem, -⟩ := exists_stem_cons (t := t) hb
  rw [hpascal, receiver_eq hb ht]
  refine ⟨?_, setApart_not_mem_keywords, setApart_mem_bodyTypes_iff⟩
  rw [hstem]
  exact isIdentifier_setApart (by simp [initials]) (isLower_of_mem_initials hb)

namespace Sample

theorem pascal_appNewYear : pascal commonAcronyms "app_new_year" = "AppNewYear" := by
  rw [pascal_eq_of_all rfl]
  decide

theorem pascal_goOn : pascal commonAcronyms "go_on1" = "GoOn1" := by
  rw [pascal_eq_of_all rfl]
  decide

/-- **A receiver that hides a type**: a name of three words, the initials of
which spell the type of all values. -/
theorem receiver_hides_any :
    isIdent "app_new_year" = true ∧
    (∃ b ∈ (Text.ofString "app_new_year").head?, isLetter b = true) ∧
    receiver (pascal commonAcronyms "app_new_year") = "any" := by
  refine ⟨by decide, ⟨'a'.toUInt8, by decide, by decide⟩, ?_⟩
  rw [pascal_appNewYear]
  exact (receiver_eq (b := 'A'.toUInt8) (t := "ppNewYear") (by decide)
    (List.all_eq_true.mp rfl)).trans (by decide)

/-- One that is set apart, because its initials are a word of the language:
the digit at the end of the type does not matter. -/
theorem receiver_goOn :
    receiver (pascal commonAcronyms "go_on1") = "_go" ∧
    IsIdentifier (receiver (pascal commonAcronyms "go_on1")) ∧
    receiver (pascal commonAcronyms "go_on1") ∉ keywords ∧
    receiver (pascal commonAcronyms "go_on1") ∉ bodyTypes := by
  obtain ⟨hident, hkeyword, htypes⟩ := receiver_pascal_spec commonAcronyms
    (show isIdent "go_on1" = true by decide) ⟨'g'.toUInt8, by decide, by decide⟩
  refine ⟨?_, hident, hkeyword, htypes.not.mpr ?_⟩
  · rw [pascal_goOn]
    exact (receiver_eq (b := 'G'.toUInt8) (t := "oOn1") (by decide)
      (List.all_eq_true.mp rfl)).trans (by decide)
  · rw [pascal_goOn]
    decide

end Sample

/-! ## Names with given initials -/

/-- The second letter of words that are two letters long. -/
abbrev second : UInt8 := 'a'.toUInt8

/-- A name whose words are two letters long, of which the first are given. -/
def spelling (w : Text) : Text := w.flatMap fun c => [c, second, underscore]

theorem spelling_cons {c : UInt8} :
    spelling (c :: w) = [c, second] ++ underscore :: spelling w := rfl

theorem splitOn_spelling (h : ∀ c ∈ w, isLower c = true) :
    (spelling w).splitOn underscore = w.map (fun c => [c, second]) ++ [[]] := by
  induction w with
  | nil => rfl
  | cons c w ih =>
    obtain ⟨hc, hw⟩ := List.forall_mem_cons.mp h
    have hne : underscore ≠ c := by
      rintro rfl
      exact absurd hc (by decide)
    have hnot : underscore ∉ [c, second] := by
      rw [List.mem_cons, not_or]
      exact ⟨hne, by decide⟩
    rw [spelling_cons, Text.splitOn_append, Text.splitOn_of_not_mem hnot, ih hw]
    rfl

theorem isWordByte_or_of_mem_spelling (h : ∀ c ∈ w, isLower c = true) :
    ∀ b ∈ spelling w, isWordByte b = true ∨ b = underscore := by
  intro b hb
  obtain ⟨c, hc, hb⟩ := List.mem_flatMap.mp hb
  have hword : isWordByte c = true := by rw [isWordByte, isLetter, h c hc]; rfl
  simp only [List.mem_cons, List.not_mem_nil, or_false] at hb
  rcases hb with rfl | rfl | rfl
  · exact Or.inl hword
  · exact Or.inl (by decide)
  · exact Or.inr rfl

/-- No known abbreviation of two letters has this second one, so only the
first letter of every word becomes a capital. -/
theorem pascal_spelling (h : ∀ c ∈ w, isLower c = true) :
    pascal commonAcronyms (spelling w) = w.flatMap fun c => [upperByte c, second] := by
  have hword : ∀ c ∈ w, (if commonAcronyms.contains ([c, second].map upperByte) then
      [c, second].map upperByte else Text.capital [c, second]) = [upperByte c, second] := by
    intro c hc
    have hacronym : ∀ a ∈ commonAcronyms, a.length = 2 → a.getLast? ≠ some (upperByte second) := by
      decide
    have hletter : isLetter c = true := by rw [isLetter, h c hc, Bool.true_or]
    rw [if_neg fun hmem => hacronym _ (List.contains_iff_mem.mp hmem) rfl rfl, Text.capital,
      if_pos hletter]
  have hkept : ((w.map fun c => [c, second]) ++ [[]]).filter (· != []) =
      w.map fun c => [c, second] := by
    rw [List.filter_append, List.filter_eq_self.mpr fun x hx => ?_]
    · exact List.append_nil _
    · obtain ⟨c, -, rfl⟩ := List.mem_map.mp hx
      rfl
  rw [pascal_eq (isWordByte_or_of_mem_spelling h), splitOn_spelling h, hkept, List.flatMap_map]
  exact List.flatMap_congr hword

theorem initialsAfter_second {rest : Text} :
    initialsAfter prev single (second :: rest) = initialsAfter second false rest := by
  cases rest with
  | nil => rfl
  | cons b rest => rfl

theorem lowerByte_upperByte (h : isLower b = true) : lowerByte (upperByte b) = b := by
  have hup : isUpper (upperByte b) = true := by
    rw [Text.isUpper_upperByte, isLetter, h, Bool.true_or]
  have hbounds := Text.isLower_iff.mp h
  rw [← UInt8.toNat_inj, Text.toNat_lowerByte hup, Text.toNat_upperByte h]
  omega

theorem initialsAfter_flatMap (h : ∀ c ∈ w, isLower c = true) :
    initialsAfter second single (w.flatMap fun c => [upperByte c, second]) = w := by
  induction w generalizing single with
  | nil => rfl
  | cons c w ih =>
    obtain ⟨hc, hw⟩ := List.forall_mem_cons.mp h
    have hopens : opensWord second single (upperByte c) second = true := by
      rw [opensWord, Text.isUpper_upperByte, isLetter, hc]
      rfl
    rw [List.flatMap_cons, List.cons_append, List.singleton_append, initialsAfter, if_pos hopens,
      initialsAfter_second, ih hw, lowerByte_upperByte hc]

/-- Nothing is cut off what begins and ends with letters. -/
theorem stem_eq {last : UInt8} (hb : isLetter b = true) (hlast : isLetter last = true) :
    stem (b :: t ++ [last]) = b :: t ++ [last] := by
  have hfront : (b :: t ++ [last]).dropWhile isTypeMark = b :: t ++ [last] := by
    rw [List.cons_append, List.dropWhile_cons_of_neg (by simp [isTypeMark_of_isLetter hb])]
  have hback : (b :: t ++ [last]).reverse.dropWhile isTypeMark = (b :: t ++ [last]).reverse := by
    rw [List.reverse_append, List.reverse_singleton, List.singleton_append,
      List.dropWhile_cons_of_neg (by simp [isTypeMark_of_isLetter hlast])]
  rw [stem, Text.trimBytes, hfront, hback, List.reverse_reverse]

/-- Both ends of such a name are letters. -/
theorem exists_flatMap_eq (c : UInt8) (w : Text) : ∃ middle,
    (c :: w).flatMap (fun c => [upperByte c, second]) = upperByte c :: middle ++ [second] := by
  induction w generalizing c with
  | nil => exact ⟨[], rfl⟩
  | cons d w ih =>
    obtain ⟨middle, hmiddle⟩ := ih d
    exact ⟨second :: upperByte d :: middle, by rw [List.flatMap_cons, hmiddle]; rfl⟩

theorem initials_flatMap (h : ∀ c ∈ w, isLower c = true) :
    initials (w.flatMap fun c => [upperByte c, second]) = w := by
  cases w with
  | nil => rfl
  | cons c w =>
    obtain ⟨hc, hw⟩ := List.forall_mem_cons.mp h
    rw [List.flatMap_cons, List.cons_append, List.singleton_append, initials,
      initialsAfter_second, initialsAfter_flatMap hw, lowerByte_upperByte hc]

/-- **Any initials are those of a name**: the receivers of types are all
small letters one can write, but that words of the language are set apart. -/
theorem exists_receiver_eq (hne : w ≠ []) (h : ∀ c ∈ w, isLower c = true) :
    ∃ name, isIdent name = true ∧ (∃ b ∈ name.head?, isLetter b = true) ∧
      receiver (pascal commonAcronyms name) = setApart w := by
  obtain ⟨c, w, rfl⟩ := List.exists_cons_of_ne_nil hne
  obtain ⟨hc, hw⟩ := List.forall_mem_cons.mp h
  have hletter : isLetter c = true := by rw [isLetter, hc, Bool.true_or]
  have hbytes := isWordByte_or_of_mem_spelling h
  have hident : isIdent (spelling (c :: w)) = true := by
    refine isIdent_iff.mpr ⟨c, _, rfl, Or.inl hletter, fun b hb => ?_⟩
    rw [← or_assoc, ← Text.isWordByte_iff]
    exact hbytes b (List.mem_cons_of_mem c hb)
  refine ⟨spelling (c :: w), hident, ⟨c, rfl, hletter⟩, ?_⟩
  have hword : ∀ b ∈ pascal commonAcronyms (spelling (c :: w)), isWordByte b = true :=
    isWordByte_of_mem_pascal hbytes
  have hcapital : isLetter (upperByte c) = true := by
    rw [isLetter, Text.isUpper_upperByte, hletter, Bool.or_true]
  obtain ⟨middle, hends⟩ := exists_flatMap_eq c w
  rw [pascal_spelling h, hends, List.cons_append] at hword ⊢
  rw [receiver_eq hcapital (List.forall_mem_cons.mp hword).2, ← List.cons_append,
    stem_eq hcapital (by decide), ← hends, initials_flatMap h]

end Naming

end WireModel
