import Mathlib.Data.List.TakeWhile
import WireModel.Value.Json

/-!
# JSON tokens — strings, words and numbers of a stream

What a stream may hold for a string and its escapes (`IsStringBody`), for a
word, of which a NUL may hide a letter (`IsWord`), and for a run of number
characters (`IsNumber`). A string or word tells where it ends, so it is read
whatever follows; a number is read if what follows does not go on with it
(`Ends`). In each case what is read has the form.
-/

namespace WireModel

namespace Json

variable {t s rest raw : Text} {b : UInt8}

/-! ## Strings -/

/-- **What stands between the quotes of a string**, and the text it is read as.
A surrogate half stands for itself only if its other half does not follow. -/
inductive IsStringBody : Text → Text → Prop
  | nil : IsStringBody [] []
  | plain {b : UInt8} {raw t : Text} (hb : b ≠ '"'.toUInt8 ∧ b ≠ '\\'.toUInt8 ∧ b ≠ 0)
      (h : IsStringBody raw t) : IsStringBody (b :: raw) (b :: t)
  | short {e x : UInt8} {raw t : Text} (he : shortEscape? e = some x) (h : IsStringBody raw t) :
      IsStringBody ('\\'.toUInt8 :: e :: raw) (x :: t)
  | single {a b c d : UInt8} {raw t : Text}
      (halone : ∀ p q r s raw', raw = '\\'.toUInt8 :: 'u'.toUInt8 :: p :: q :: r :: s :: raw' →
        surrogatePair? (escapeCode a b c d) (escapeCode p q r s) = none)
      (h : IsStringBody raw t) :
      IsStringBody ('\\'.toUInt8 :: 'u'.toUInt8 :: a :: b :: c :: d :: raw)
        (Text.ofRune (if isSurrogate (escapeCode a b c d) then Text.replacement
          else escapeCode a b c d) ++ t)
  | pair {a b c d p q r s : UInt8} {raw t : Text} {x : Nat}
      (hpair : surrogatePair? (escapeCode a b c d) (escapeCode p q r s) = some x)
      (h : IsStringBody raw t) :
      IsStringBody ('\\'.toUInt8 :: 'u'.toUInt8 :: a :: b :: c :: d ::
        '\\'.toUInt8 :: 'u'.toUInt8 :: p :: q :: r :: s :: raw) (Text.ofRune x ++ t)

theorem stringBody?_skip (r : StringRules) (n : Nat) (t : Text) :
    stringBody? r n t = stringBody? r 0 (t.drop n) := by
  induction t generalizing n with
  | nil => cases n <;> rfl
  | cons b t ih =>
    cases n with
    | zero => rfl
    | succ n => rw [stringBody?, ih, List.drop_succ_cons]

/-! ### Escapes -/

theorem unicodeEscape?_single {a b c d e : UInt8} {rest : Text}
    (halone : ∀ p q r s x rest', e :: rest =
      '\\'.toUInt8 :: 'u'.toUInt8 :: p :: q :: r :: s :: x :: rest' →
        surrogatePair? (escapeCode a b c d) (escapeCode p q r s) = none) :
    unicodeEscape? (a :: b :: c :: d :: e :: rest) =
      some (if isSurrogate (escapeCode a b c d) then Text.replacement
        else escapeCode a b c d, 4) := by
  unfold unicodeEscape?
  dsimp only
  by_cases hs : isSurrogate (escapeCode a b c d) = true
  · simp only [hs, Bool.not_true, Bool.false_eq_true, if_false, if_true]
    split
    · rename_i u p q r s x rest'
      split
      · rename_i hmark
        rw [Bool.and_eq_true, beq_iff_eq, beq_iff_eq] at hmark
        obtain ⟨rfl, rfl⟩ := hmark
        rw [halone p q r s x rest' rfl]
      · rfl
    · rfl
  · rw [Bool.not_eq_true] at hs
    simp [hs]

theorem surrogatePair?_isSurrogate {hi lo x : Nat} (h : surrogatePair? hi lo = some x) :
    isSurrogate hi = true := by
  rw [surrogatePair?] at h
  split at h
  · rename_i hbounds
    simp only [isSurrogate, Bool.and_eq_true, decide_eq_true_eq]
    omega
  · cases h

theorem unicodeEscape?_pair {a b c d p q r s e : UInt8} {x : Nat}
    (hpair : surrogatePair? (escapeCode a b c d) (escapeCode p q r s) = some x) :
    unicodeEscape? (a :: b :: c :: d :: '\\'.toUInt8 :: 'u'.toUInt8 :: p :: q :: r :: s :: e :: t) =
      some (x, 10) := by
  unfold unicodeEscape?
  simp [surrogatePair?_isSurrogate hpair, hpair]

/-- What a `\u` escape is read as, by what follows its digits. -/
theorem unicodeEscape?_eq_some {n c : Nat} (h : unicodeEscape? t = some (c, n)) :
    (∃ p q r s e rest, t = p :: q :: r :: s :: e :: rest ∧ n = 4 ∧
      c = (if isSurrogate (escapeCode p q r s) then Text.replacement else escapeCode p q r s) ∧
      ∀ p' q' r' s' x rest', e :: rest =
        '\\'.toUInt8 :: 'u'.toUInt8 :: p' :: q' :: r' :: s' :: x :: rest' →
          surrogatePair? (escapeCode p q r s) (escapeCode p' q' r' s') = none) ∨
    (∃ p q r s p' q' r' s' e rest, t = p :: q :: r :: s :: '\\'.toUInt8 :: 'u'.toUInt8 ::
      p' :: q' :: r' :: s' :: e :: rest ∧ n = 10 ∧
      surrogatePair? (escapeCode p q r s) (escapeCode p' q' r' s') = some c) := by
  match t with
  | [] | [_] | [_, _] | [_, _, _] | [_, _, _, _] => cases h
  | p :: q :: r :: s :: e :: rest =>
    by_cases hpair : ∃ p' q' r' s' x rest' y, e :: rest =
        '\\'.toUInt8 :: 'u'.toUInt8 :: p' :: q' :: r' :: s' :: x :: rest' ∧
          surrogatePair? (escapeCode p q r s) (escapeCode p' q' r' s') = some y
    · obtain ⟨p', q', r', s', x, rest', y, heq, hy⟩ := hpair
      obtain ⟨rfl, rfl⟩ := List.cons.inj heq
      rw [unicodeEscape?_pair hy] at h
      obtain ⟨rfl, rfl⟩ := Prod.mk.inj (Option.some.inj h)
      exact .inr ⟨p, q, r, s, p', q', r', s', x, rest', rfl, rfl, hy⟩
    · have halone : ∀ p' q' r' s' x rest', e :: rest =
          '\\'.toUInt8 :: 'u'.toUInt8 :: p' :: q' :: r' :: s' :: x :: rest' →
            surrogatePair? (escapeCode p q r s) (escapeCode p' q' r' s') = none := by
        intro p' q' r' s' x rest' heq
        rw [Option.eq_none_iff_forall_ne_some]
        exact fun y hy => hpair ⟨p', q', r', s', x, rest', y, heq, hy⟩
      rw [unicodeEscape?_single halone] at h
      obtain ⟨rfl, rfl⟩ := Prod.mk.inj (Option.some.inj h)
      exact .inl ⟨p, q, r, s, e, rest, rfl, rfl, rfl, halone⟩

/-! ### The reader of strings, step by step -/

theorem stringBody?_quote : stringBody? {} 0 ('"'.toUInt8 :: rest) = some ([], rest) := rfl

theorem stringBody?_plain (hb : b ≠ '"'.toUInt8 ∧ b ≠ '\\'.toUInt8 ∧ b ≠ 0) :
    stringBody? {} 0 (b :: t) = (stringBody? {} 0 t).map fun (u, rest) => (b :: u, rest) := by
  rw [stringBody?]
  simp [hb]

theorem stringBody?_short {e x : UInt8} (he : shortEscape? e = some x) :
    stringBody? {} 0 ('\\'.toUInt8 :: e :: t) =
      (stringBody? {} 0 t).map fun (u, rest) => (x :: u, rest) := by
  have hu : (e == 'u'.toUInt8) = false := by
    rw [Bool.eq_false_iff]
    intro h
    have hnone : shortEscape? 'u'.toUInt8 = none := by decide
    rw [eq_of_beq h, hnone] at he
    cases he
  have hslash : ('\\'.toUInt8 == '"'.toUInt8) = false := by decide
  have hplain : (({} : StringRules).isPlain '\\'.toUInt8) = true := by decide
  rw [stringBody?, hslash, hplain]
  simp [hu, he, stringBody?_skip {} 1]

theorem stringBody?_unicode {c n : Nat} (h : unicodeEscape? t = some (c, n)) :
    stringBody? {} 0 ('\\'.toUInt8 :: 'u'.toUInt8 :: t) =
      (stringBody? {} 0 (t.drop n)).map fun (u, rest) => (Text.ofRune c ++ u, rest) := by
  have hslash : ('\\'.toUInt8 == '"'.toUInt8) = false := by decide
  have hplain : (({} : StringRules).isPlain '\\'.toUInt8) = true := by decide
  have hescape : StringRules.escape? {} t = some (c, n) := by
    simp [StringRules.escape?, h]
  rw [stringBody?, hslash, hplain]
  simp [hescape, stringBody?_skip {} (n + 1)]

/-! ### The reader of strings and its grammar -/

/-- An escape that a string starts with ends within it. -/
theorem IsStringBody.exists_escape (h : IsStringBody raw t) {p q r s : UInt8} {tail : Text}
    (heq : raw ++ '"'.toUInt8 :: rest =
      '\\'.toUInt8 :: 'u'.toUInt8 :: p :: q :: r :: s :: tail) :
    ∃ raw', raw = '\\'.toUInt8 :: 'u'.toUInt8 :: p :: q :: r :: s :: raw' := by
  cases h with
  | nil => exact absurd (List.cons.inj heq).1 (by decide)
  | plain hb h => exact absurd (List.cons.inj heq).1 hb.2.1
  | short he h =>
    have hnone : shortEscape? 'u'.toUInt8 = none := by decide
    obtain rfl := (List.cons.inj (List.cons.inj heq).2).1
    rw [hnone] at he
    cases he
  | single halone h =>
    simp only [List.cons_append, List.cons.injEq] at heq
    obtain ⟨-, -, rfl, rfl, rfl, rfl, -⟩ := heq
    exact ⟨_, rfl⟩
  | pair hpair h =>
    simp only [List.cons_append, List.cons.injEq] at heq
    obtain ⟨-, -, rfl, rfl, rfl, rfl, -⟩ := heq
    exact ⟨_, rfl⟩

/-- **A string is read up to its closing quote**, whatever follows. -/
theorem IsStringBody.stringBody?_append (h : IsStringBody raw t) (rest : Text) :
    stringBody? {} 0 (raw ++ '"'.toUInt8 :: rest) = some (t, rest) := by
  induction h with
  | nil => rfl
  | plain hb h ih => rw [List.cons_append, stringBody?_plain hb, ih, Option.map_some]
  | short he h ih =>
    rw [List.cons_append, List.cons_append, stringBody?_short he, ih, Option.map_some]
  | @single a b c d raw t halone h ih =>
    obtain ⟨e, more, hmore⟩ : ∃ e more, raw ++ '"'.toUInt8 :: rest = e :: more := by
      cases raw <;> exact ⟨_, _, rfl⟩
    have hescape := unicodeEscape?_single (a := a) (b := b) (c := c) (d := d) (e := e)
      fun p q r s x rest' heq => by
        obtain ⟨raw', hraw⟩ := h.exists_escape (hmore.trans heq)
        exact halone p q r s raw' hraw
    rw [← hmore] at hescape
    change stringBody? {} 0 ('\\'.toUInt8 :: 'u'.toUInt8 :: a :: b :: c :: d ::
      (raw ++ '"'.toUInt8 :: rest)) = _
    rw [stringBody?_unicode hescape]
    simp only [List.drop_succ_cons, List.drop_zero, ih, Option.map_some]
  | @pair a b c d p q r s raw t x hpair h ih =>
    obtain ⟨e, more, hmore⟩ : ∃ e more, raw ++ '"'.toUInt8 :: rest = e :: more := by
      cases raw <;> exact ⟨_, _, rfl⟩
    have hescape := unicodeEscape?_pair (t := more) (e := e) hpair
    rw [← hmore] at hescape
    change stringBody? {} 0 ('\\'.toUInt8 :: 'u'.toUInt8 :: a :: b :: c :: d ::
      '\\'.toUInt8 :: 'u'.toUInt8 :: p :: q :: r :: s :: (raw ++ '"'.toUInt8 :: rest)) = _
    rw [stringBody?_unicode hescape]
    simp only [List.drop_succ_cons, List.drop_zero, ih, Option.map_some]

/-- What is read behind a backslash, given what is read of shorter texts. -/
theorem exists_isStringBody_escape {s : Text}
    (ih : ∀ s' : Text, s'.length < s.length → ∀ t rest, stringBody? {} 0 s' = some (t, rest) →
      ∃ raw, s' = raw ++ '"'.toUInt8 :: rest ∧ IsStringBody raw t)
    (h : stringBody? {} 0 ('\\'.toUInt8 :: s) = some (t, rest)) :
    ∃ raw, '\\'.toUInt8 :: s = raw ++ '"'.toUInt8 :: rest ∧ IsStringBody raw t := by
  have hslash : ('\\'.toUInt8 == '"'.toUInt8) = false := by decide
  have hplain : (({} : StringRules).isPlain '\\'.toUInt8) = true := by decide
  cases s with
  | nil =>
    rw [stringBody?, hslash, hplain] at h
    simp at h
  | cons e s =>
    by_cases hu : e = 'u'.toUInt8
    · subst hu
      cases hescape : unicodeEscape? s with
      | none =>
        rw [stringBody?, hslash, hplain] at h
        simp [StringRules.escape?, hescape] at h
      | some parts =>
        obtain ⟨c, n⟩ := parts
        rw [stringBody?_unicode hescape] at h
        obtain ⟨⟨u, rest'⟩, hu, heq⟩ := Option.map_eq_some_iff.mp h
        obtain ⟨rfl, rfl⟩ := Prod.mk.inj heq
        have hshort : (s.drop n).length < ('u'.toUInt8 :: s).length := by
          rw [List.length_drop, List.length_cons]
          omega
        obtain ⟨raw, hdrop, hraw⟩ := ih _ hshort _ _ hu
        rcases unicodeEscape?_eq_some hescape with
          ⟨p, q, r, x, e, more, rfl, rfl, rfl, halone⟩ |
          ⟨p, q, r, x, p', q', r', x', e, more, rfl, rfl, hpair⟩
        · change e :: more = raw ++ '"'.toUInt8 :: rest' at hdrop
          rw [hdrop] at halone ⊢
          refine ⟨'\\'.toUInt8 :: 'u'.toUInt8 :: p :: q :: r :: x :: raw, rfl, .single ?_ hraw⟩
          -- the other half would have been seen, with the closing quote or more behind it
          rintro p' q' r' x' raw' rfl
          cases raw' with
          | nil => exact halone p' q' r' x' _ _ rfl
          | cons b raw' => exact halone p' q' r' x' _ _ rfl
        · change e :: more = raw ++ '"'.toUInt8 :: rest' at hdrop
          rw [hdrop]
          exact ⟨'\\'.toUInt8 :: 'u'.toUInt8 :: p :: q :: r :: x :: '\\'.toUInt8 :: 'u'.toUInt8 ::
            p' :: q' :: r' :: x' :: raw, rfl, .pair hpair hraw⟩
    · cases he : shortEscape? e with
      | none =>
        rw [stringBody?, hslash, hplain] at h
        simp [hu, he] at h
      | some x =>
        rw [stringBody?_short he] at h
        obtain ⟨⟨u, _⟩, hu, heq⟩ := Option.map_eq_some_iff.mp h
        obtain ⟨rfl, rfl⟩ := Prod.mk.inj heq
        obtain ⟨raw, rfl, hraw⟩ := ih s (Nat.lt_succ_self _) _ _ hu
        exact ⟨'\\'.toUInt8 :: e :: raw, rfl, .short he hraw⟩

/-- **What is read as a string is one**, with a closing quote behind it. -/
theorem exists_isStringBody {s t rest : Text} (h : stringBody? {} 0 s = some (t, rest)) :
    ∃ raw, s = raw ++ '"'.toUInt8 :: rest ∧ IsStringBody raw t := by
  -- by the length of the text, since the reader goes over several bytes at an escape
  match s with
  | [] => cases h
  | b :: s =>
    by_cases hquote : b = '"'.toUInt8
    · subst hquote
      rw [stringBody?_quote] at h
      obtain ⟨rfl, rfl⟩ := Prod.mk.inj (Option.some.inj h)
      exact ⟨[], rfl, .nil⟩
    by_cases hslash : b = '\\'.toUInt8
    · subst hslash
      exact exists_isStringBody_escape (fun s' hs' t rest h' => exists_isStringBody h') h
    · have hzero : b ≠ 0 := by
        rintro rfl
        cases h
      have hb : b ≠ '"'.toUInt8 ∧ b ≠ '\\'.toUInt8 ∧ b ≠ 0 := ⟨hquote, hslash, hzero⟩
      rw [stringBody?_plain hb] at h
      obtain ⟨⟨u, _⟩, hu, heq⟩ := Option.map_eq_some_iff.mp h
      obtain ⟨rfl, rfl⟩ := Prod.mk.inj heq
      obtain ⟨raw, rfl, hraw⟩ := exists_isStringBody hu
      exact ⟨b :: raw, rfl, .plain hb hraw⟩
termination_by s.length
decreasing_by
  · exact Nat.lt_succ_of_lt hs'
  · exact Nat.lt_succ_self _

/-! ## Words -/

/-- **What a word may be written as.** A NUL may hide one letter, once in all;
the last two arguments but one are the word and its text. -/
inductive IsWord : (lenient : Bool) → (word text : Text) → (after : Bool) → Prop
  | nil {lenient : Bool} : IsWord lenient [] [] lenient
  | letter {lenient after : Bool} {w : UInt8} {ws t : Text} (h : IsWord lenient ws t after) :
      IsWord lenient (w :: ws) (w :: t) after
  | hidden {after : Bool} {w : UInt8} {ws t : Text} (hw : w ≠ 0) (h : IsWord false ws t after) :
      IsWord true (w :: ws) (0 :: t) after

variable {fuel depth : Nat} {lenient after : Bool} {c stop : Cursor} {word : Text}

theorem IsWord.lenientWord?_append (h : IsWord lenient word t after) (rest : Text) :
    lenientWord? word ⟨t ++ rest, lenient⟩ = some ⟨rest, after⟩ := by
  induction h with
  | nil => rfl
  | letter h ih =>
    rw [List.cons_append, lenientWord?]
    simpa using ih
  | hidden hw h ih =>
    rw [List.cons_append, lenientWord?]
    simpa [Ne.symm hw] using ih

/-- What is read as a word is one, or what the word is without its last letter stands at the very
end. -/
theorem exists_isWord (h : lenientWord? word c = some stop) :
    (∃ t, c.rest = t ++ stop.rest ∧ IsWord c.isLenient word t stop.isLenient) ∨
      (stop.rest = [] ∧ c.isLenient = true ∧ ∃ w, word = c.rest ++ [w]) := by
  induction word generalizing c with
  | nil =>
    obtain rfl := Option.some.inj h
    exact .inl ⟨[], rfl, .nil⟩
  | cons w ws ih =>
    obtain ⟨text, lenient⟩ := c
    rw [lenientWord?] at h
    cases text with
    | nil =>
      cases lenient with
      | false => cases h
      | true =>
        cases ws with
        | nil =>
          obtain rfl := Option.some.inj h
          exact .inr ⟨rfl, rfl, w, rfl⟩
        | cons w' ws => cases h
    | cons b bs =>
      by_cases hb : b = w
      · subst hb
        simp only [beq_self_eq_true, if_true] at h
        rcases ih h with ⟨t, hrest, ht⟩ | ⟨hrest, hlenient, w', rfl⟩
        · exact .inl ⟨b :: t, congrArg (b :: ·) hrest, .letter ht⟩
        · exact .inr ⟨hrest, hlenient, w', rfl⟩
      · simp only [beq_iff_eq, hb, if_false] at h
        split at h
        · rename_i hhidden
          obtain ⟨hzero, hlenient⟩ : b = 0 ∧ lenient = true := by simpa using hhidden
          subst hzero hlenient
          rcases ih h with ⟨t, hrest, ht⟩ | ⟨-, hlenient, -⟩
          · exact .inl ⟨0 :: t, congrArg (0 :: ·) hrest, .hidden (Ne.symm hb) ht⟩
          · cases hlenient
        · cases h

/-! ## Numbers -/

/-- **A run of number characters** that reads as a floating point number in range. -/
structure IsNumber (t : Text) : Prop where
  head : ∃ b ∈ t.head?, (Text.isDigit b || b == '-'.toUInt8) = true
  run : ∀ b ∈ t, isNumberByte b = true
  value : ∃ x, t.toDouble = .ok x

/-- What may follow a value: no character that goes on with a number. -/
def Ends (v : Value) (rest : Text) : Prop :=
  (∃ t, v = .number t) → ∀ b ∈ rest.head?, isNumberByte b = false

theorem number?_eq_some_iff {kind : ScalarKind} : stream.number? t = some kind ↔
    (∃ x, t.toDouble = .ok x) ∧ kind = (t.toSigned? 64).elim .float ScalarKind.int := by
  rw [stream]
  dsimp only
  cases t.toDouble with
  | error e => simp
  | ok x => simp [eq_comm]

theorem toValue_number :
    (Doc.scalar ((t.toSigned? 64).elim .float ScalarKind.int) t 0).toValue = .number t := by
  cases t.toSigned? 64 <;> rfl

/-- **A number is read whatever follows it** that does not go on with it. -/
theorem IsNumber.numberAt?_append (h : IsNumber t) (hrest : Ends (.number t) rest) :
    ∃ x, stream.numberAt? ⟨t ++ rest, lenient⟩ = some (x, ⟨rest, lenient⟩) ∧
      x.toValue = .number t := by
  have hrun : (t ++ rest).takeWhile isNumberByte = t := by
    rw [List.takeWhile_append_of_pos h.run]
    cases rest with
    | nil => simp
    | cons b rest => simp [hrest ⟨t, rfl⟩ b rfl]
  refine ⟨_, ?_, toValue_number⟩
  rw [Dialect.numberAt?]
  simp only [hrun, number?_eq_some_iff.mpr ⟨h.value, rfl⟩, Option.map_some, Cursor.skip,
    List.drop_left]

/-- **What is read as a number is one**, up to where it ends. -/
theorem exists_isNumber {x : Doc} (hb : (Text.isDigit b || b == '-'.toUInt8) = true)
    (hc : c.rest.head? = some b) (h : stream.numberAt? c = some (x, stop)) :
    ∃ t, c.rest = t ++ stop.rest ∧ stop.isLenient = c.isLenient ∧ IsNumber t ∧
      x.toValue = .number t ∧ Ends (.number t) stop.rest := by
  rw [Dialect.numberAt?] at h
  obtain ⟨kind, hkind, heq⟩ := Option.map_eq_some_iff.mp h
  obtain ⟨rfl, rfl⟩ := Prod.mk.inj heq
  obtain ⟨hvalue, rfl⟩ := number?_eq_some_iff.mp hkind
  have hsplit := List.takeWhile_append_dropWhile (p := isNumberByte) (l := c.rest)
  have hdrop : c.rest.drop (c.rest.takeWhile isNumberByte).length =
      c.rest.dropWhile isNumberByte :=
    (congrArg (List.drop _) hsplit.symm).trans List.drop_left
  refine ⟨c.rest.takeWhile isNumberByte, ?_, rfl, ⟨?_, ?_, hvalue⟩, toValue_number, ?_⟩
  · rw [Cursor.skip, hdrop, hsplit]
  · have hnumber : isNumberByte b = true := by
      simp only [Bool.or_eq_true] at hb
      rcases hb with hb | hb <;> simp [isNumberByte, hb]
    refine ⟨b, ?_, hb⟩
    obtain ⟨bs, hbs⟩ := List.head?_eq_some_iff.mp hc
    rw [hbs, List.takeWhile_cons_of_pos hnumber]
    rfl
  · exact fun b hb => List.mem_takeWhile_imp hb
  · intro _ b hb
    rw [Cursor.skip, hdrop] at hb
    have hnot := List.head?_dropWhile_not isNumberByte c.rest
    rw [Option.mem_def.mp hb] at hnot
    simpa using hnot

end Json

end WireModel
