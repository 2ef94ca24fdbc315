import WireModel.Proofs.Value.JsonToken

/-!
# JSON grammar — the text of one value

The texts that a stream may hold for a value have a grammar: that of JSON, with
what the stream is generous about (`IsValue`). What is read of a stream has
this grammar, up to a word at the very end that may lack its last letter
(`takesText`).
-/

namespace WireModel

namespace Json

variable {t s rest raw : Text} {b : UInt8} {fuel depth : Nat} {lenient after : Bool}
  {c stop : Cursor} {word : Text}

/-! ## Values -/

/-- White space. -/
def IsSpaces (t : Text) : Prop := ∀ b ∈ t, isSpace b = true

/-- The values of the words. -/
def wordValues : List (Text × Value) :=
  [("null", .null), ("true", .bool true), ("false", .bool false)]

/-- The text of a key: a string, or null for the empty one. -/
inductive IsKey : (lenient : Bool) → (text key : Text) → (after : Bool) → Prop
  | text {lenient : Bool} {raw t : Text} (h : IsStringBody raw t) :
      IsKey lenient ('"'.toUInt8 :: (raw ++ ['"'.toUInt8])) t lenient
  | null {lenient after : Bool} {t : Text} (h : IsWord lenient "ull" t after) :
      IsKey lenient ('n'.toUInt8 :: t) [] after

mutual

/-- **The text of one value**, nested no deeper than allowed. -/
inductive IsValue : (depth : Nat) → (lenient : Bool) → Text → Value → (after : Bool) → Prop
  | text {depth : Nat} {lenient : Bool} {raw t : Text} (h : IsStringBody raw t) :
      IsValue depth lenient ('"'.toUInt8 :: (raw ++ ['"'.toUInt8])) (.text t) lenient
  | number {depth : Nat} {lenient : Bool} {t : Text} (h : IsNumber t) :
      IsValue depth lenient t (.number t) lenient
  | word {depth : Nat} {lenient after : Bool} {w : UInt8} {ws t : Text} {v : Value}
      (hw : (w :: ws, v) ∈ wordValues) (h : IsWord lenient ws t after) :
      IsValue depth lenient (w :: t) v after
  | emptyList {depth : Nat} {lenient : Bool} {a : Text} (ha : IsSpaces a) :
      IsValue (depth + 1) lenient ('['.toUInt8 :: (a ++ [']'.toUInt8])) (.list []) lenient
  | list {depth : Nat} {lenient after : Bool} {t : Text} {vs : List Value}
      (h : IsItems depth lenient t vs after) :
      IsValue (depth + 1) lenient ('['.toUInt8 :: t) (.list vs) after
  | emptyMap {depth : Nat} {lenient : Bool} {a : Text} (ha : IsSpaces a) :
      IsValue (depth + 1) lenient ('\x7b'.toUInt8 :: (a ++ ['\x7d'.toUInt8])) (.map []) lenient
  | map {depth : Nat} {lenient after : Bool} {t : Text} {es : List (Text × Value)}
      (h : IsMembers depth lenient t es after) :
      IsValue (depth + 1) lenient ('\x7b'.toUInt8 :: t) (.map (Text.lastEntries es)) after

/-- A value with white space around it. -/
inductive IsElement : (depth : Nat) → (lenient : Bool) → Text → Value → (after : Bool) → Prop
  | mk {depth : Nat} {lenient after : Bool} {a t b : Text} {v : Value} (ha : IsSpaces a)
      (h : IsValue depth lenient t v after) (hb : IsSpaces b) :
      IsElement depth lenient (a ++ (t ++ b)) v after

/-- Values up to the bracket that closes their list. -/
inductive IsItems : (depth : Nat) → (lenient : Bool) → Text → List Value → (after : Bool) → Prop
  | last {depth : Nat} {lenient after : Bool} {t : Text} {v : Value}
      (h : IsElement depth lenient t v after) :
      IsItems depth lenient (t ++ [']'.toUInt8]) [v] after
  | cons {depth : Nat} {lenient between after : Bool} {t u : Text} {v : Value} {vs : List Value}
      (h : IsElement depth lenient t v between) (hs : IsItems depth between u vs after) :
      IsItems depth lenient (t ++ ','.toUInt8 :: u) (v :: vs) after

/-- A key and a value with a colon between them. -/
inductive IsMember : (depth : Nat) → (lenient : Bool) → Text → Text × Value → (after : Bool) → Prop
  | mk {depth : Nat} {lenient between after : Bool} {a k b t key : Text} {v : Value}
      (ha : IsSpaces a) (hk : IsKey lenient k key between) (hb : IsSpaces b)
      (h : IsElement depth between t v after) :
      IsMember depth lenient (a ++ (k ++ (b ++ ':'.toUInt8 :: t))) (key, v) after

/-- Members up to the brace that closes their object. -/
inductive IsMembers :
    (depth : Nat) → (lenient : Bool) → Text → List (Text × Value) → (after : Bool) → Prop
  | last {depth : Nat} {lenient after : Bool} {t : Text} {e : Text × Value}
      (h : IsMember depth lenient t e after) :
      IsMembers depth lenient (t ++ ['\x7d'.toUInt8]) [e] after
  | cons {depth : Nat} {lenient between after : Bool} {t u : Text} {e : Text × Value}
      {es : List (Text × Value)} (h : IsMember depth lenient t e between)
      (hs : IsMembers depth between u es after) :
      IsMembers depth lenient (t ++ ','.toUInt8 :: u) (e :: es) after

end

/-! ### Cursors -/

theorem skipSpace_append {a : Text} (ha : IsSpaces a) (t : Text) :
    skipSpace (a ++ t) = skipSpace t :=
  List.dropWhile_append_of_pos ha

theorem skipSpace_of_head (h : ∀ b ∈ t.head?, isSpace b = false) : skipSpace t = t := by
  cases t with
  | nil => rfl
  | cons b t => simp [skipSpace, h b rfl]

theorem exists_skipSpace (t : Text) : ∃ a, t = a ++ skipSpace t ∧ IsSpaces a :=
  ⟨t.takeWhile isSpace, List.takeWhile_append_dropWhile.symm, fun _ hb => List.mem_takeWhile_imp hb⟩

theorem head?_skipSpace (h : b ∈ (skipSpace t).head?) : isSpace b = false := by
  have hnot := List.head?_dropWhile_not isSpace t
  rw [skipSpace, Option.mem_def] at h
  rw [h] at hnot
  simpa using hnot

theorem expect?_eq_some_iff : c.expect? b = some stop ↔
    c.rest = b :: stop.rest ∧ c.isLenient = stop.isLenient := by
  obtain ⟨t, lenient⟩ := c
  obtain ⟨rest, after⟩ := stop
  rw [Cursor.expect?]
  cases t with
  | nil => simp
  | cons x t =>
    by_cases hx : x = b
    · simp [hx, Cursor.skip]
    · simp [hx]

theorem skipSpace_skipSpace (c : Cursor) : c.skipSpace.skipSpace = c.skipSpace := by
  rw [Cursor.skipSpace, Cursor.skipSpace, skipSpace_of_head fun b hb => head?_skipSpace hb]

theorem value?_skipSpace : stream.value? fuel depth c.skipSpace = stream.value? fuel depth c := by
  cases fuel with
  | zero => rfl
  | succ fuel => rw [Dialect.value?, Dialect.value?, skipSpace_skipSpace]

theorem items?_skipSpace : stream.items? fuel depth c.skipSpace = stream.items? fuel depth c := by
  cases fuel with
  | zero => rfl
  | succ fuel => rw [Dialect.items?, Dialect.items?, value?_skipSpace]

theorem members?_skipSpace :
    stream.members? fuel depth c.skipSpace = stream.members? fuel depth c := by
  cases fuel with
  | zero => rfl
  | succ fuel => rw [Dialect.members?, Dialect.members?, skipSpace_skipSpace]

/-! ### The reader of values, by the first byte -/

theorem value?_text : stream.value? (fuel + 1) depth ⟨'"'.toUInt8 :: t, lenient⟩ =
    (stringBody? {} 0 t).map fun (u, rest) => (.scalar .text u 0, ⟨rest, lenient⟩) := by
  rw [Dialect.value?]
  change Option.map _ (stream.string? ⟨t, lenient⟩) = _
  rw [Dialect.string?, Option.map_map]
  rfl

theorem isSpace_of_number (hb : (Text.isDigit b || b == '-'.toUInt8) = true) :
    isSpace b = false := by
  rw [Bool.eq_false_iff]
  intro h
  simp only [isSpace, Bool.or_eq_true, beq_iff_eq] at h
  rcases h with ((rfl | rfl) | rfl) | rfl <;> exact absurd hb (by decide)

theorem skipSpace_head (hspace : isSpace b = false) :
    Cursor.skipSpace ⟨b :: t, lenient⟩ = ⟨b :: t, lenient⟩ := by
  simp [Cursor.skipSpace, skipSpace, hspace]

theorem value?_number (hb : (Text.isDigit b || b == '-'.toUInt8) = true) :
    stream.value? (fuel + 1) depth ⟨b :: t, lenient⟩ = stream.numberAt? ⟨b :: t, lenient⟩ := by
  have hquote : (b == '"'.toUInt8) = false := by
    rw [beq_eq_false_iff_ne]
    rintro rfl
    exact absurd hb (by decide)
  rw [Dialect.value?, skipSpace_head (isSpace_of_number hb)]
  simp only [List.head?_cons, hquote, hb, Bool.false_eq_true, if_false, if_true]

theorem value?_list : stream.value? (fuel + 1) (depth + 1) ⟨'['.toUInt8 :: t, lenient⟩ =
    match (Cursor.skipSpace ⟨t, lenient⟩).expect? ']'.toUInt8 with
    | some stop => some (.list [] 0, stop)
    | none => (stream.items? fuel depth ⟨t, lenient⟩).map fun (xs, stop) => (.list xs 0, stop) := by
  rw [Dialect.value?, ← items?_skipSpace]
  rfl

theorem value?_map : stream.value? (fuel + 1) (depth + 1) ⟨'\x7b'.toUInt8 :: t, lenient⟩ =
    match (Cursor.skipSpace ⟨t, lenient⟩).expect? '\x7d'.toUInt8 with
    | some stop => some (.object [] 0, stop)
    | none =>
      (stream.members? fuel depth ⟨t, lenient⟩).map fun (es, stop) => (.object es 0, stop) := by
  rw [Dialect.value?, ← members?_skipSpace]
  rfl

theorem value?_word (hspace : isSpace b = false)
    (hb : b ≠ '"'.toUInt8 ∧ b ≠ '['.toUInt8 ∧ b ≠ '\x7b'.toUInt8)
    (hnumber : (Text.isDigit b || b == '-'.toUInt8) = false) :
    stream.value? (fuel + 1) depth ⟨b :: t, lenient⟩ = stream.wordAt? ⟨b :: t, lenient⟩ := by
  rw [Dialect.value?, skipSpace_head hspace]
  simp [hb, hnumber]

/-- The marks that part values. -/
def isParting (b : UInt8) : Bool := b == ','.toUInt8 || b == ':'.toUInt8

/-! ### What is read as a word or a key -/

/-- A word that lacks its last letter. -/
def IsCutWord (t : Text) (v : Value) : Prop := t ≠ [] ∧ ∃ w, (t ++ [w], v) ∈ wordValues

theorem IsWord.tail {w : UInt8} {ws : Text} (h : IsWord lenient (w :: ws) t after)
    (hhead : (t ++ rest).head? = some w) : ∃ u, t = w :: u ∧ IsWord lenient ws u after := by
  cases h with
  | letter h => exact ⟨_, rfl, h⟩
  | hidden hw h => exact absurd (Option.some.inj hhead).symm hw

theorem mem_wordValues {kind : ScalarKind} (h : (word, kind) ∈ words) :
    (word, (Doc.scalar kind word 0).toValue) ∈ wordValues := by
  simp only [words, List.mem_cons, Prod.mk.injEq, List.not_mem_nil, or_false] at h
  rcases h with ⟨rfl, rfl⟩ | ⟨rfl, rfl⟩ | ⟨rfl, rfl⟩ <;> simp [wordValues, Doc.toValue.eq_def]

theorem exists_word {x : Doc} (hc : c.rest.head? = some b) (h : stream.wordAt? c = some (x, stop)) :
    (∃ ws t, c.rest = b :: (t ++ stop.rest) ∧ (b :: ws, x.toValue) ∈ wordValues ∧
      IsWord c.isLenient ws t stop.isLenient) ∨
    (stop.rest = [] ∧ c.isLenient = true ∧ IsCutWord c.rest x.toValue) := by
  simp only [Dialect.wordAt?, Option.bind_eq_bind, Option.bind_eq_some_iff, Option.pure_def,
    Option.some.injEq, Prod.mk.injEq, Prod.exists] at h
  obtain ⟨word, kind, hfind, _, hword, rfl, rfl⟩ := h
  have hmem := mem_wordValues (List.mem_of_find?_eq_some hfind)
  have hhead : word.head? = some b := by
    have hhead := List.find?_some hfind
    rw [hc] at hhead
    exact eq_of_beq hhead
  obtain ⟨ws, rfl⟩ := List.head?_eq_some_iff.mp hhead
  rcases exists_isWord hword with ⟨t, hrest, ht⟩ | ⟨hrest, hlenient, w, hcut⟩
  · rw [hrest] at hc
    obtain ⟨u, rfl, hu⟩ := ht.tail hc
    exact .inl ⟨ws, u, hrest, hmem, hu⟩
  · refine .inr ⟨hrest, hlenient, ?_, w, hcut ▸ hmem⟩
    rintro hnil
    rw [hnil] at hc
    cases hc

theorem exists_isKey {k : Doc} (h : stream.key? c = some (k, stop)) :
    (∃ t, c.rest = t ++ stop.rest ∧ IsKey c.isLenient t k.keyText stop.isLenient) ∨
      stop.rest = [] := by
  rw [Dialect.key?] at h
  split at h
  · rename_i inner hinner
    obtain ⟨hrest, hlenient⟩ := expect?_eq_some_iff.mp hinner
    obtain ⟨⟨t, _⟩, ht, heq⟩ := Option.map_eq_some_iff.mp h
    obtain ⟨rfl, rfl⟩ := Prod.mk.inj heq
    obtain ⟨⟨t, after⟩, hbody, heq⟩ := Option.map_eq_some_iff.mp ht
    obtain ⟨rfl, rfl⟩ := Prod.mk.inj heq
    obtain ⟨raw, hraw, hbody⟩ := exists_isStringBody hbody
    refine .inl ⟨'"'.toUInt8 :: (raw ++ ['"'.toUInt8]), ?_, ?_⟩
    · rw [hrest, hraw]
      simp
    · rw [hlenient]
      exact .text hbody
  · split at h
    · rename_i hhead
      obtain ⟨stop, hword, heq⟩ := Option.map_eq_some_iff.mp h
      obtain ⟨rfl, rfl⟩ := Prod.mk.inj heq
      rcases exists_isWord hword with ⟨t, hrest, ht⟩ | ⟨hrest, -, -⟩
      · rw [hrest] at hhead
        have ht : IsWord c.isLenient ('n'.toUInt8 :: ("ull" : Text)) t stop.isLenient := ht
        obtain ⟨u, rfl, hu⟩ := ht.tail (eq_of_beq hhead)
        exact .inl ⟨_, hrest, .null hu⟩
      · exact .inr hrest
    · cases h

/-! ### What is read is the text of a value -/

/-- With so much fuel, what is read is the text of a value, or of items or members up to the mark
that closes them. Only at the very end may a word lack its last letter. -/
structure TakesText (fuel : Nat) : Prop where
  value {depth : Nat} {c stop : Cursor} {x : Doc}
    (h : stream.value? fuel depth c = some (x, stop)) :
    (∃ a t, c.rest = a ++ (t ++ stop.rest) ∧ IsSpaces a ∧
      IsValue depth c.isLenient t x.toValue stop.isLenient ∧ Ends x.toValue stop.rest) ∨
    (stop.rest = [] ∧ c.isLenient = true ∧
      ∃ a t, c.rest = a ++ t ∧ IsSpaces a ∧ IsCutWord t x.toValue)
  items {depth : Nat} {c stop : Cursor} {xs : List Doc}
    (h : stream.items? fuel depth c = some (xs, stop)) :
    ∃ t, c.rest = t ++ stop.rest ∧ IsItems depth c.isLenient t (Doc.toValues xs) stop.isLenient
  members {depth : Nat} {c stop : Cursor} {es : List (Doc × Doc)}
    (h : stream.members? fuel depth c = some (es, stop)) :
    ∃ t, c.rest = t ++ stop.rest ∧ IsMembers depth c.isLenient t (Doc.toEntries es) stop.isLenient

theorem ne_number_of_mem_wordValues {v : Value} (h : (word, v) ∈ wordValues) :
    v ≠ .number t := by
  simp only [wordValues, List.mem_cons, Prod.mk.injEq, List.not_mem_nil, or_false] at h
  rcases h with ⟨-, rfl⟩ | ⟨-, rfl⟩ | ⟨-, rfl⟩ <;> exact Value.noConfusion

/-- What follows anything but a number does not matter. -/
theorem ends_of_ne {v : Value} (h : ∀ t, v ≠ .number t) : Ends v rest :=
  fun ⟨t, ht⟩ => absurd ht (h t)

theorem exists_closed {close : UInt8}
    (h : (Cursor.skipSpace ⟨t, lenient⟩).expect? close = some stop) :
    ∃ a, t = a ++ close :: stop.rest ∧ IsSpaces a ∧ stop.isLenient = lenient := by
  obtain ⟨hrest, hlenient⟩ := expect?_eq_some_iff.mp h
  obtain ⟨a, hsplit, ha⟩ := exists_skipSpace t
  exact ⟨a, hsplit.trans (congrArg (a ++ ·) hrest), ha, hlenient.symm⟩

theorem TakesText.list (htakes : TakesText fuel) {x : Doc}
    (h : stream.value? (fuel + 1) depth ⟨'['.toUInt8 :: t, lenient⟩ = some (x, stop)) :
    ∃ u, '['.toUInt8 :: t = u ++ stop.rest ∧ IsValue depth lenient u x.toValue stop.isLenient ∧
      Ends x.toValue stop.rest := by
  cases depth with
  | zero => cases h
  | succ depth =>
    rw [value?_list] at h
    split at h
    · rename_i hclosed
      obtain ⟨rfl, rfl⟩ := Prod.mk.inj (Option.some.inj h)
      obtain ⟨a, rfl, ha, hlenient⟩ := exists_closed hclosed
      rw [hlenient]
      exact ⟨'['.toUInt8 :: (a ++ [']'.toUInt8]), by simp, .emptyList ha,
        ends_of_ne fun _ => Value.noConfusion⟩
    · obtain ⟨⟨xs, _⟩, hxs, heq⟩ := Option.map_eq_some_iff.mp h
      obtain ⟨rfl, rfl⟩ := Prod.mk.inj heq
      obtain ⟨u, rfl, hu⟩ := htakes.items hxs
      exact ⟨'['.toUInt8 :: u, rfl, .list hu, ends_of_ne fun _ => Value.noConfusion⟩

theorem toValue_emptyObject : (Doc.object [] 0).toValue = .map [] := by
  change Value.map (Text.lastEntries []) = _
  rw [Text.lastEntries, Text.lastEntries.go, Text.sortByKey, List.mergeSort_nil]

theorem TakesText.map (htakes : TakesText fuel) {x : Doc}
    (h : stream.value? (fuel + 1) depth ⟨'\x7b'.toUInt8 :: t, lenient⟩ = some (x, stop)) :
    ∃ u, '\x7b'.toUInt8 :: t = u ++ stop.rest ∧ IsValue depth lenient u x.toValue stop.isLenient ∧
      Ends x.toValue stop.rest := by
  cases depth with
  | zero => cases h
  | succ depth =>
    rw [value?_map] at h
    split at h
    · rename_i hclosed
      obtain ⟨rfl, rfl⟩ := Prod.mk.inj (Option.some.inj h)
      obtain ⟨a, rfl, ha, hlenient⟩ := exists_closed hclosed
      rw [hlenient]
      rw [toValue_emptyObject]
      exact ⟨'\x7b'.toUInt8 :: (a ++ ['\x7d'.toUInt8]), by simp, .emptyMap ha,
        ends_of_ne fun _ => Value.noConfusion⟩
    · obtain ⟨⟨es, _⟩, hes, heq⟩ := Option.map_eq_some_iff.mp h
      obtain ⟨rfl, rfl⟩ := Prod.mk.inj heq
      obtain ⟨u, rfl, hu⟩ := htakes.members hes
      exact ⟨'\x7b'.toUInt8 :: u, rfl, .map hu, ends_of_ne fun _ => Value.noConfusion⟩

/-- A value from its first byte on. -/
theorem TakesText.value_head (htakes : TakesText fuel) (hspace : isSpace b = false) {x : Doc}
    (h : stream.value? (fuel + 1) depth ⟨b :: t, lenient⟩ = some (x, stop)) :
    (∃ u, b :: t = u ++ stop.rest ∧ IsValue depth lenient u x.toValue stop.isLenient ∧
      Ends x.toValue stop.rest) ∨
    (stop.rest = [] ∧ lenient = true ∧ IsCutWord (b :: t) x.toValue) := by
  -- the first byte decides, and only words are left when it is no mark and no number
  by_cases hnumber : (Text.isDigit b || b == '-'.toUInt8) = true
  · rw [value?_number hnumber] at h
    obtain ⟨u, hrest, hlenient, hu, hvalue, hends⟩ := exists_isNumber hnumber rfl h
    rw [hvalue, hlenient]
    exact .inl ⟨u, hrest, .number hu, hends⟩
  by_cases hquote : b = '"'.toUInt8
  · subst hquote
    rw [value?_text] at h
    obtain ⟨⟨u, rest⟩, hu, heq⟩ := Option.map_eq_some_iff.mp h
    obtain ⟨rfl, rfl⟩ := Prod.mk.inj heq
    obtain ⟨raw, rfl, hraw⟩ := exists_isStringBody hu
    exact .inl ⟨'"'.toUInt8 :: (raw ++ ['"'.toUInt8]), by simp, .text hraw,
      ends_of_ne fun _ => Value.noConfusion⟩
  by_cases hlist : b = '['.toUInt8
  · subst hlist
    exact .inl (htakes.list h)
  by_cases hmap : b = '\x7b'.toUInt8
  · subst hmap
    exact .inl (htakes.map h)
  · rw [value?_word hspace ⟨hquote, hlist, hmap⟩ (Bool.eq_false_iff.mpr hnumber)] at h
    rcases exists_word rfl h with ⟨ws, u, hrest, hmem, hu⟩ | hcut
    · exact .inl ⟨b :: u, hrest, .word hmem hu,
        ends_of_ne fun _ => ne_number_of_mem_wordValues hmem⟩
    · exact .inr hcut

theorem TakesText.value_succ (htakes : TakesText fuel) {x : Doc}
    (h : stream.value? (fuel + 1) depth c = some (x, stop)) :
    (∃ a t, c.rest = a ++ (t ++ stop.rest) ∧ IsSpaces a ∧
      IsValue depth c.isLenient t x.toValue stop.isLenient ∧ Ends x.toValue stop.rest) ∨
    (stop.rest = [] ∧ c.isLenient = true ∧
      ∃ a t, c.rest = a ++ t ∧ IsSpaces a ∧ IsCutWord t x.toValue) := by
  obtain ⟨text, lenient⟩ := c
  obtain ⟨a, hsplit, ha⟩ := exists_skipSpace text
  rw [← value?_skipSpace, Cursor.skipSpace] at h
  dsimp only at h ⊢
  cases hskip : skipSpace text with
  | nil =>
    rw [hskip] at h
    cases h
  | cons b t =>
    rw [hskip] at h hsplit
    have hspace : isSpace b = false := head?_skipSpace (t := text) (by rw [hskip]; rfl)
    rcases htakes.value_head hspace h with ⟨u, hu, hvalue, hends⟩ | ⟨hrest, hlenient, hcut⟩
    · exact .inl ⟨a, u, by rw [hsplit, hu], ha, hvalue, hends⟩
    · exact .inr ⟨hrest, hlenient, a, b :: t, hsplit, ha, hcut⟩

/-- A value with a mark behind it, which a word at the very end has not. -/
theorem TakesText.element (htakes : TakesText fuel) {x : Doc} {mid : Cursor} {mark : UInt8}
    (h : stream.value? fuel depth c = some (x, mid))
    (hmark : mid.skipSpace.expect? mark = some stop) :
    ∃ t, c.rest = t ++ mark :: stop.rest ∧
      IsElement depth c.isLenient t x.toValue stop.isLenient := by
  obtain ⟨b, hmid, hb, hlenient⟩ := exists_closed hmark
  rcases htakes.value h with ⟨a, t, hrest, ha, hvalue, -⟩ | ⟨hnil, -⟩
  · refine ⟨a ++ (t ++ b), ?_, hlenient ▸ .mk ha hvalue hb⟩
    rw [hrest, hmid]
    simp
  · rw [hnil] at hmid
    cases b <;> cases hmid

theorem TakesText.items_succ (htakes : TakesText fuel) {xs : List Doc}
    (h : stream.items? (fuel + 1) depth c = some (xs, stop)) :
    ∃ t, c.rest = t ++ stop.rest ∧
      IsItems depth c.isLenient t (Doc.toValues xs) stop.isLenient := by
  rw [Dialect.items?] at h
  split at h
  · cases h
  · rename_i x mid hvalue
    dsimp only at h
    split at h
    · rename_i next _ hcomma
      obtain ⟨⟨ys, _⟩, hys, heq⟩ := Option.map_eq_some_iff.mp h
      obtain ⟨rfl, rfl⟩ := Prod.mk.inj heq
      obtain ⟨t, hrest, ht⟩ := htakes.element hvalue hcomma
      obtain ⟨u, hu, hitems⟩ := htakes.items hys
      refine ⟨t ++ ','.toUInt8 :: u, ?_, .cons ht hitems⟩
      rw [hrest, hu]
      simp
    · rename_i next _ hclose
      obtain ⟨rfl, rfl⟩ := Prod.mk.inj (Option.some.inj h)
      obtain ⟨t, hrest, ht⟩ := htakes.element hvalue hclose
      refine ⟨t ++ [']'.toUInt8], ?_, .last ht⟩
      rw [hrest]
      simp
    · cases h

/-- A member with a mark behind it. -/
theorem TakesText.member (htakes : TakesText fuel) {k x : Doc} {colon mid next : Cursor}
    {mark : UInt8} (hkey : stream.key? c.skipSpace = some (k, colon))
    (hcolon : colon.skipSpace.expect? ':'.toUInt8 = some next)
    (h : stream.value? fuel depth next = some (x, mid))
    (hmark : mid.skipSpace.expect? mark = some stop) :
    ∃ t, c.rest = t ++ mark :: stop.rest ∧
      IsMember depth c.isLenient t (k.keyText, x.toValue) stop.isLenient := by
  obtain ⟨a, hsplit, ha⟩ := exists_skipSpace c.rest
  obtain ⟨b, hb, hbspaces, hlenient⟩ := exists_closed hcolon
  obtain ⟨t, ht, helement⟩ := htakes.element h hmark
  rcases exists_isKey hkey with ⟨u, hu, hk⟩ | hnil
  · refine ⟨a ++ (u ++ (b ++ ':'.toUInt8 :: t)), ?_, .mk ha hk hbspaces (hlenient ▸ helement)⟩
    have hskip : skipSpace c.rest = u ++ colon.rest := hu
    rw [hsplit, hskip, hb, ht]
    simp
  · rw [hnil] at hb
    cases b <;> cases hb

theorem TakesText.members_succ (htakes : TakesText fuel) {es : List (Doc × Doc)}
    (h : stream.members? (fuel + 1) depth c = some (es, stop)) :
    ∃ t, c.rest = t ++ stop.rest ∧
      IsMembers depth c.isLenient t (Doc.toEntries es) stop.isLenient := by
  rw [Dialect.members?] at h
  split at h
  · cases h
  · rename_i k colon hkey
    split at h
    · cases h
    · rename_i next hcolon
      split at h
      · cases h
      · rename_i x mid hvalue
        dsimp only at h
        split at h
        · rename_i _ _ hcomma
          obtain ⟨⟨ys, _⟩, hys, heq⟩ := Option.map_eq_some_iff.mp h
          obtain ⟨rfl, rfl⟩ := Prod.mk.inj heq
          obtain ⟨t, hrest, ht⟩ := htakes.member hkey hcolon hvalue hcomma
          obtain ⟨u, hu, hmembers⟩ := htakes.members hys
          refine ⟨t ++ ','.toUInt8 :: u, ?_, .cons ht hmembers⟩
          rw [hrest, hu]
          simp
        · rename_i _ _ hclose
          obtain ⟨rfl, rfl⟩ := Prod.mk.inj (Option.some.inj h)
          obtain ⟨t, hrest, ht⟩ := htakes.member hkey hcolon hvalue hclose
          refine ⟨t ++ ['\x7d'.toUInt8], ?_, .last ht⟩
          rw [hrest]
          simp
        · cases h

theorem takesText (fuel : Nat) : TakesText fuel := by
  induction fuel with
  | zero => exact ⟨fun h => (nomatch h), fun h => (nomatch h), fun h => (nomatch h)⟩
  | succ fuel ih => exact ⟨ih.value_succ, ih.items_succ, ih.members_succ⟩

end Json

end WireModel
