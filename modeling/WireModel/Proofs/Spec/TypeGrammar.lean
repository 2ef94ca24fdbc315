import WireModel.Spec.TypeParser
import WireModel.Proofs.Text.Cut
import WireModel.Proofs.Text.Rune

/-!
# The grammar of types — what is read, and what is not

`TypeExpr.Writes` and `TypeExpr.Derives` are the grammar of types: the
words that are types by themselves, the items of composites in brackets,
and white space around every type and in front of an opening bracket. A
word is never followed by a byte of a word, because white space, a
bracket or the end comes next; so words are as long as they can be.

`TypeExpr.parse` accepts exactly this grammar (`TypeExpr.parse_exact`).
Both directions speak of reading at the start of a text
(`writes_of_parseStart`, `parseStart_of_writes`): what is read is what
the grammar writes, and what it writes is read, whatever follows that
does not go on with the last word.
-/

namespace WireModel

namespace TypeExpr

open Text

/-! ## The grammar -/

/-- The names of scalar types. -/
inductive ScalarName : Text → TypeExpr → Prop
  | bool : ScalarName "bool" (scalar .bool)
  | i8 : ScalarName "i8" (int 8)
  | i16 : ScalarName "i16" (int 16)
  | i32 : ScalarName "i32" (int 32)
  | i64 : ScalarName "i64" (int 64)
  | f64 : ScalarName "f64" float
  | bigint : ScalarName "bigint" (scalar .bigint)
  | decimal : ScalarName "decimal" (scalar .decimal)
  | string : ScalarName "string" (scalar .string)
  | bytes : ScalarName "bytes" (scalar .bytes)
  | json : ScalarName "json" (scalar .json)

/-- The names of composite types. -/
inductive CompositeName : Text → Kind → Prop
  | list : CompositeName "list" .list
  | map : CompositeName "map" .map
  | optional : CompositeName "optional" .optional

/-- A word that is the name of a scalar or composite. -/
def IsReserved (word : Text) : Prop :=
  (∃ t, ScalarName word t) ∨ ∃ k, CompositeName word k

/-- A name or an alias: a word without dots. -/
def IsName (word : Text) : Prop :=
  word ≠ [] ∧ ∀ b ∈ word, isWordByte b = true ∧ b ≠ '.'.toUInt8

/-- **What a text writes**, without white space around it. -/
inductive Writes : Text → TypeExpr → Prop
  | scalar {word : Text} {t : TypeExpr} (h : ScalarName word t) : Writes word t
  | composite {word gap before inner after : Text} {k : Kind} {elem : TypeExpr}
      (h : CompositeName word k) (hgap : IsBlanks gap) (hbefore : IsBlanks before)
      (hafter : IsBlanks after) (helem : Writes inner elem) :
      Writes (word ++ gap ++ ['['.toUInt8] ++ before ++ inner ++ after ++ [']'.toUInt8])
        (node k 0 none elem)
  | name {word : Text} (h : IsName word) (hfree : ¬ IsReserved word) : Writes word (ref [] word)
  | qualified {ns word : Text} (hns : IsName ns) (h : IsName word) :
      Writes (ns ++ ['.'.toUInt8] ++ word) (ref ns word)

/-- **The grammar of types**: white space may stand around a type. -/
def Derives (s : Text) (t : TypeExpr) : Prop :=
  ∃ before inner after, IsBlanks before ∧ Writes inner t ∧ IsBlanks after ∧
    s = before ++ inner ++ after

/-! ## Words -/

/-- A row of a table of words answers for its word, or leaves it to the
rows below. -/
theorem of_row_eq_some {α : Type} {word w : Text} {a b : α} {below : Option α}
    (h : (if word == w then some a else below) = some b) :
    word = w ∧ a = b ∨ below = some b := by
  by_cases hw : (word == w) = true
  · rw [if_pos hw] at h
    exact Or.inl ⟨beq_iff_eq.mp hw, Option.some.inj h⟩
  · rw [if_neg hw] at h
    exact Or.inr h

theorem scalarOf?_eq_some_iff {word : Text} {t : TypeExpr} :
    scalarOf? word = some t ↔ ScalarName word t := by
  constructor
  · intro h
    rw [scalarOf?] at h
    iterate 11
      rcases of_row_eq_some h with ⟨rfl, rfl⟩ | h
      · constructor
    cases h
  · intro h
    cases h <;> rfl

theorem compositeOf?_eq_some_iff {word : Text} {k : Kind} :
    compositeOf? word = some k ↔ CompositeName word k := by
  constructor
  · intro h
    rw [compositeOf?] at h
    iterate 3
      rcases of_row_eq_some h with ⟨rfl, rfl⟩ | h
      · constructor
    cases h
  · intro h
    cases h <;> rfl

theorem isReserved_iff {word : Text} :
    IsReserved word ↔ scalarOf? word ≠ none ∨ compositeOf? word ≠ none := by
  simp only [IsReserved, Option.ne_none_iff_exists', scalarOf?_eq_some_iff,
    compositeOf?_eq_some_iff]

/-- Names by a test of their bytes. -/
theorem isName_of_all {word : Text} (hne : word ≠ [])
    (h : word.all (fun b => isWordByte b && b != '.'.toUInt8) = true) : IsName word :=
  ⟨hne, fun b hb => by simpa using List.all_eq_true.mp h b hb⟩

/-- Reserved words are words without dots. -/
theorem IsReserved.isName {word : Text} (h : IsReserved word) : IsName word := by
  rcases h with ⟨t, h⟩ | ⟨k, h⟩ <;> cases h <;> exact isName_of_all (by decide) (by decide)

/-- The bytes of words are visible. -/
theorem isVisible_of_isWordByte {b : UInt8} (h : isWordByte b = true) : IsVisible b := by
  have hrange : 0x2E ≤ b.toNat ∧ b.toNat ≤ 0x7A := by
    simp only [isWordByte, isLetter, isLower, isUpper, isDigit, Bool.or_eq_true, Bool.and_eq_true,
      decide_eq_true_eq, UInt8.le_iff_toNat_le, beq_iff_eq, ← UInt8.toNat_inj, Char.toUInt8] at h
    have hcodes : 'a'.val.toUInt8.toNat = 0x61 ∧ 'z'.val.toUInt8.toNat = 0x7A ∧
      'A'.val.toUInt8.toNat = 0x41 ∧ 'Z'.val.toUInt8.toNat = 0x5A ∧
      '0'.val.toUInt8.toNat = 0x30 ∧ '9'.val.toUInt8.toNat = 0x39 ∧
      '_'.val.toUInt8.toNat = 0x5F ∧ '.'.val.toUInt8.toNat = 0x2E := by decide
    omega
  refine ⟨by omega, ?_⟩
  rw [Bool.eq_false_iff]
  intro hblank
  simp only [Rune.isBlankCode, Bool.or_eq_true, Bool.and_eq_true, decide_eq_true_eq,
    beq_iff_eq] at hblank
  omega

theorem IsName.isWordByte {word : Text} (h : IsName word) :
    ∀ b ∈ word, isWordByte b = true := fun b hb => (h.2 b hb).1

theorem IsName.not_mem_dot {word : Text} (h : IsName word) : '.'.toUInt8 ∉ word :=
  fun hb => (h.2 _ hb).2 rfl

/-- **The references that words write.** -/
theorem refOf_eq_ok_iff {word : Text} {t : TypeExpr} (hne : word ≠ [])
    (hword : ∀ b ∈ word, isWordByte b = true) : refOf word = .ok t ↔
      (IsName word ∧ t = ref [] word) ∨
        ∃ ns name, IsName ns ∧ IsName name ∧ word = ns ++ ['.'.toUInt8] ++ name ∧ t = ref ns name := by
  rw [refOf]
  cases hcut : word.cut? '.'.toUInt8 with
  | none =>
    have hdot : '.'.toUInt8 ∉ word := cut?_eq_none_iff.mp hcut
    have hname : IsName word := ⟨hne, fun b hb => ⟨hword b hb, fun heq => hdot (heq ▸ hb)⟩⟩
    constructor
    · intro h
      cases h
      exact Or.inl ⟨hname, rfl⟩
    · rintro (⟨-, rfl⟩ | ⟨ns, name, -, -, rfl, -⟩)
      · rfl
      · exact absurd (by simp) hdot
  | some p =>
    obtain ⟨ns, name⟩ := p
    obtain ⟨rfl, hns⟩ := cut?_eq_some_iff.mp hcut
    simp only [Bool.or_eq_true, beq_iff_eq, List.contains_iff_mem]
    constructor
    · intro h
      split at h
      · cases h
      · rename_i hparts
        rw [not_or, not_or] at hparts
        cases h
        have hnsName : IsName ns :=
          ⟨hparts.1.1, fun b hb => ⟨hword b (by simp [hb]), fun heq => hns (heq ▸ hb)⟩⟩
        have hname : IsName name :=
          ⟨hparts.1.2, fun b hb => ⟨hword b (by simp [hb]), fun heq => hparts.2 (heq ▸ hb)⟩⟩
        exact Or.inr ⟨ns, name, hnsName, hname, by simp, rfl⟩
    · rintro (⟨hname, -⟩ | ⟨ns', name', hns', hname', heq, rfl⟩)
      · exact absurd (by simp) hname.not_mem_dot
      · -- the first dot stands behind the alias, which has none
        have hcut' : (ns' ++ '.'.toUInt8 :: name').cut? '.'.toUInt8 = some (ns', name') :=
          cut?_eq_some_iff.mpr ⟨rfl, hns'.not_mem_dot⟩
        rw [heq, List.append_assoc, List.singleton_append, hcut'] at hcut
        cases hcut
        rw [if_neg]
        rintro ((h | h) | h)
        · exact hns'.1 h
        · exact hname'.1 h
        · exact hname'.not_mem_dot h

/-! ## Reading words -/

/-- A text that a word before it does not go on in. -/
def Stops (rest : Text) : Prop := ∀ b ∈ rest.head?, isWordByte b = false

/-- A word is split off whole. -/
theorem splitWord_append {word rest : Text} (hword : ∀ b ∈ word, isWordByte b = true)
    (hrest : Stops rest) : splitWord (word ++ rest) = (word, rest) := by
  have hstop : rest.takeWhile isWordByte = [] ∧ rest.dropWhile isWordByte = rest := by
    cases rest with
    | nil => exact ⟨rfl, rfl⟩
    | cons b rest => simp [hrest b rfl]
  rw [splitWord, List.takeWhile_append_of_pos hword, List.dropWhile_append_of_pos hword, hstop.1,
    hstop.2, List.append_nil]

/-- White space stops a word. -/
theorem Stops.blanks_append {gap rest : Text} (hgap : IsBlanks gap) (hrest : Stops rest) :
    Stops (gap ++ rest) := by
  obtain ⟨cs, hcs, rfl⟩ := hgap
  cases cs with
  | nil => exact hrest
  | cons c cs =>
    have hmem := mem_of_isBlankCode (hcs c List.mem_cons_self)
    fin_cases hmem <;> exact fun b hb => by cases hb; rfl

/-! ## What is read is written so -/

theorem isWordByte_of_mem_splitWord {t : Text} {b : UInt8} (h : b ∈ (splitWord t).1) :
    isWordByte b = true := List.mem_takeWhile_imp h

/-- **What is read is written so**, after white space. The induction is on
the steps of the reader, most of which end in an error. -/
theorem writes_of_parseStart {text rest : Text} {t : TypeExpr}
    (h : parseStart text = .ok (t, rest)) :
    ∃ before inner, IsBlanks before ∧ Writes inner t ∧ text = before ++ inner ++ rest := by
  -- the word that is read first, after the white space in front of it
  have hsplit : ∀ text : Text, ∃ before, IsBlanks before ∧
      text = before ++ (splitWord text.trimStart).1 ++ (splitWord text.trimStart).2 := by
    intro text
    obtain ⟨before, hbefore, heq⟩ := exists_blanks_trimStart text
    refine ⟨before, hbefore, ?_⟩
    rw [splitWord, List.append_assoc, List.takeWhile_append_dropWhile]
    exact heq
  fun_induction parseStart text generalizing t rest with
  | case2 =>
    rename_i text trimmed word after hne s hs
    cases h
    obtain ⟨before, hbefore, heq⟩ := hsplit text
    exact ⟨before, word, hbefore, .scalar (scalarOf?_eq_some_iff.mp hs), heq⟩
  | case8 =>
    rename_i text trimmed word after hne k hk hs opening inner hopen hbracket elem afterElem hread
      closing after' hclose hbracket' ih
    cases h
    obtain ⟨before, hbefore, heq⟩ := hsplit text
    obtain ⟨gap, hgap, hafter⟩ := exists_blanks_trimStart after
    obtain ⟨inside, inner', hinside, hinner, hinnerEq⟩ := ih hread
    obtain ⟨last, hlast, hlastEq⟩ := exists_blanks_trimStart afterElem
    obtain rfl : opening = '['.toUInt8 := by simpa using hbracket
    obtain rfl : closing = ']'.toUInt8 := by simpa using hbracket'
    refine ⟨before, _, hbefore,
      .composite (compositeOf?_eq_some_iff.mp hk) hgap hinside hlast hinner, ?_⟩
    calc text = before ++ word ++ after := heq
      _ = before ++ word ++ (gap ++ '['.toUInt8 :: inner) := by rw [← hopen, ← hafter]
      _ = before ++ word ++ (gap ++ '['.toUInt8 :: (inside ++ inner' ++
            (last ++ ']'.toUInt8 :: after'))) := by rw [hinnerEq, ← hclose, ← hlastEq]
      _ = _ := by simp [word]
  | case10 =>
    rename_i text trimmed word after hne hk hs t' hread
    cases h
    obtain ⟨before, hbefore, heq⟩ := hsplit text
    have hne' : word ≠ [] := by simpa using hne
    have hword : ∀ b ∈ word, isWordByte b = true := fun b => isWordByte_of_mem_splitWord
    rcases (refOf_eq_ok_iff hne' hword).mp hread with
      ⟨hname, rfl⟩ | ⟨ns, name, hns, hname, hsplit', rfl⟩
    · have hfree : ¬ IsReserved word := fun hres =>
        (isReserved_iff.mp hres).elim (absurd hs) (absurd hk)
      exact ⟨before, word, hbefore, .name hname hfree, heq⟩
    · refine ⟨before, _, hbefore, .qualified hns hname, ?_⟩
      rw [← hsplit']
      exact heq
  | _ => cases h

/-! ## What is written is read -/

/-- **Reading at a word**: the white space in front of it is skipped, and
the word decides what comes next. -/
theorem parseStart_word {before word after : Text} (hbefore : IsBlanks before) (hne : word ≠ [])
    (hword : ∀ b ∈ word, isWordByte b = true) (hafter : Stops after) :
    parseStart (before ++ word ++ after) =
      match scalarOf? word, compositeOf? word with
      | some s, _ => .ok (s, after)
      | none, some k =>
        match after.trimStart with
        | [] => .error (.noItem (word ++ after) word)
        | b :: inner =>
          if b != '['.toUInt8 then .error (.noItem (word ++ after) word)
          else
            match parseStart inner with
            | .error e => .error e
            | .ok (elem, rest) =>
              match rest.trimStart with
              | [] => .error (.unclosed (word ++ after))
              | b :: rest =>
                if b != ']'.toUInt8 then .error (.unclosed (word ++ after))
                else .ok (node k 0 none elem, rest)
      | none, none =>
        match refOf word with
        | .error e => .error e
        | .ok t => .ok (t, after) := by
  have htight : IsTight word :=
    isTight_of_isVisible hne fun b hb => isVisible_of_isWordByte (hword b hb)
  have htrim : (before ++ word ++ after).trimStart = word ++ after := by
    rw [List.append_assoc, trimStart_blanks_append hbefore, htight.trimStart]
  have hnil : ¬ (word == []) = true := by simpa using hne
  rw [parseStart]
  have hsplit : splitWord (before ++ word ++ after).trimStart = (word, after) := by
    rw [htrim, splitWord_append hword hafter]
  generalize splitWord (before ++ word ++ after).trimStart = p at hsplit ⊢
  subst hsplit
  rw [if_neg hnil, htrim]
  cases scalarOf? word with
  | some s => rfl
  | none =>
    cases compositeOf? word with
    | none => rfl
    | some k =>
      dsimp only
      split
      · rename_i hnext
        simp only [hnext]
      · rename_i hnext
        exact hnext ▸ rfl

/-- **What is written is read**, whatever follows. The induction is on how
the type is written. -/
theorem parseStart_of_writes {inner : Text} {t : TypeExpr} (h : Writes inner t) {before rest : Text}
    (hbefore : IsBlanks before) (hrest : Stops rest) :
    parseStart (before ++ inner ++ rest) = .ok (t, rest) := by
  induction h generalizing before rest with
  | scalar h =>
    have hname := IsReserved.isName (Or.inl ⟨_, h⟩)
    rw [parseStart_word hbefore hname.1 hname.isWordByte hrest, scalarOf?_eq_some_iff.mpr h]
  | composite h hgap hinside hlast helem ih =>
    rename_i word gap inside inner last k elem
    have hname := IsReserved.isName (Or.inr ⟨_, h⟩)
    have hscalar : scalarOf? word = none := by cases h <;> rfl
    have hopen : Stops (gap ++ '['.toUInt8 :: (inside ++ inner ++ (last ++ ']'.toUInt8 :: rest))) :=
      Stops.blanks_append hgap fun b hb => by cases hb; rfl
    have hclose : Stops (last ++ ']'.toUInt8 :: rest) :=
      Stops.blanks_append hlast fun b hb => by cases hb; rfl
    have hnext : ∀ {s u : Text} {b : UInt8}, IsBlanks s → IsVisible b →
        (s ++ b :: u).trimStart = b :: u := by
      intro s u b hs hb
      rw [trimStart_blanks_append hs]
      exact (isTight_of_isVisible (List.cons_ne_nil b [])
        (List.forall_mem_singleton.mpr hb)).trimStart u
    have hassoc : before ++ (word ++ gap ++ ['['.toUInt8] ++ inside ++ inner ++ last ++
        [']'.toUInt8]) ++ rest = before ++ word ++
          (gap ++ '['.toUInt8 :: (inside ++ inner ++ (last ++ ']'.toUInt8 :: rest))) := by
      simp
    rw [hassoc, parseStart_word hbefore hname.1 hname.isWordByte hopen, hscalar,
      compositeOf?_eq_some_iff.mpr h]
    simp only [hnext hgap (b := '['.toUInt8) ⟨by decide, by decide⟩, ih hinside hclose,
      hnext hlast (b := ']'.toUInt8) ⟨by decide, by decide⟩]
    rfl
  | name h hfree =>
    rename_i word
    rw [isReserved_iff, not_or, not_not, not_not] at hfree
    rw [parseStart_word hbefore h.1 h.isWordByte hrest, hfree.1, hfree.2]
    simp only [(refOf_eq_ok_iff h.1 h.isWordByte).mpr (Or.inl ⟨h, rfl⟩)]
  | qualified hns h =>
    rename_i ns word
    have hne : ns ++ ['.'.toUInt8] ++ word ≠ [] := by simp
    have hword : ∀ b ∈ ns ++ ['.'.toUInt8] ++ word, isWordByte b = true := by
      simp only [List.mem_append, List.mem_singleton]
      rintro b ((hb | rfl) | hb)
      · exact hns.isWordByte b hb
      · rfl
      · exact h.isWordByte b hb
    have hfree : ¬ IsReserved (ns ++ ['.'.toUInt8] ++ word) := fun hres =>
      hres.isName.not_mem_dot (by simp)
    rw [isReserved_iff, not_or, not_not, not_not] at hfree
    rw [parseStart_word hbefore hne hword hrest, hfree.1, hfree.2]
    simp only [(refOf_eq_ok_iff hne hword).mpr (Or.inr ⟨ns, word, hns, h, rfl, rfl⟩)]

/-! ## Exactly the grammar -/

/-- What is written starts and ends with something else than white space. -/
theorem Writes.isTight {inner : Text} {t : TypeExpr} (h : Writes inner t) : IsTight inner := by
  have hvisible : ∀ {word : Text}, IsName word → ∀ b ∈ word, IsVisible b :=
    fun hname b hb => isVisible_of_isWordByte (hname.isWordByte b hb)
  induction h with
  | scalar h =>
    have hname := IsReserved.isName (Or.inl ⟨_, h⟩)
    exact isTight_of_isVisible hname.1 (hvisible hname)
  | composite h hgap hinside hlast helem ih =>
    rename_i word gap inside inner last k elem
    have hname := IsReserved.isName (Or.inr ⟨_, h⟩)
    obtain ⟨b, word, rfl⟩ := List.exists_cons_of_ne_nil hname.1
    have hword : IsWhole word := isWhole_of_lt fun c hc => (hvisible hname c (by simp [hc])).1
    have hopen : IsWhole ['['.toUInt8] := isWhole_of_lt (List.forall_mem_singleton.mpr (by decide))
    have hinner : IsWhole (word ++ gap ++ ['['.toUInt8] ++ inside ++ inner ++ last) :=
      ((((hword.append hgap.isWhole).append hopen).append hinside.isWhole).append ih.whole).append
        hlast.isWhole
    exact isTight_enclosed (hvisible hname b List.mem_cons_self) ⟨by decide, by decide⟩ hinner
  | name h hfree => exact isTight_of_isVisible h.1 (hvisible h)
  | qualified hns h =>
    refine isTight_of_isVisible (by simp) ?_
    simp only [List.mem_append, List.mem_singleton]
    rintro b ((hb | rfl) | hb)
    · exact hvisible hns b hb
    · exact ⟨by decide, by decide⟩
    · exact hvisible h b hb

theorem parse_of_derives {s : Text} {t : TypeExpr} (h : Derives s t) : parse s = .ok t := by
  obtain ⟨before, inner, after, hbefore, hinner, hafter, rfl⟩ := h
  have hread : parseStart ([] ++ inner ++ []) = .ok (t, []) :=
    parseStart_of_writes hinner isBlanks_nil fun b hb => nomatch hb
  rw [List.nil_append, List.append_nil] at hread
  rw [parse, hinner.isTight.trim hbefore hafter, hread]
  rfl

theorem derives_of_parse {s : Text} {t : TypeExpr} (h : parse s = .ok t) : Derives s t := by
  rw [parse] at h
  cases hread : parseStart s.trim with
  | error e => simp [hread, bind, Except.bind] at h
  | ok p =>
    obtain ⟨t', rest⟩ := p
    simp only [hread, bind, Except.bind] at h
    split at h
    · rename_i hblank
      cases h
      obtain ⟨before, inner, hbefore, hinner, heq⟩ := writes_of_parseStart hread
      obtain ⟨first, last, hfirst, hlast, hs⟩ := exists_blanks_trim s
      refine ⟨first ++ before, inner, rest ++ last, hfirst.append hbefore, hinner,
        (isBlank_iff.mp hblank).append hlast, ?_⟩
      rw [hs, heq]
      simp
    · cases h

/-- **Reading accepts exactly the grammar.** A text is read as a type if
and only if the grammar derives the type from it, and any other text is
an error. -/
theorem parse_exact (s : Text) : (∀ t, parse s = .ok t ↔ Derives s t) ∧
    ((∃ fault, parse s = .error fault) ↔ ∀ t, ¬ Derives s t) := by
  have hiff : ∀ t, parse s = .ok t ↔ Derives s t :=
    fun t => ⟨derives_of_parse, parse_of_derives⟩
  refine ⟨hiff, ?_⟩
  cases hs : parse s with
  | error fault =>
    refine ⟨fun _ t ht => ?_, fun _ => ⟨fault, rfl⟩⟩
    rw [parse_of_derives ht] at hs
    cases hs
  | ok t =>
    refine ⟨fun h => ?_, fun h => absurd (derives_of_parse hs) (h t)⟩
    obtain ⟨fault, h⟩ := h
    cases h

end TypeExpr

end WireModel
