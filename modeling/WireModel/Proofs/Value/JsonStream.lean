import WireModel.Proofs.Value.JsonGrammar

/-!
# JSON streams — the text of one value is read

Values tell where they end, numbers apart, so the text of one is read whatever
follows it (`readsText`). With what is known of the texts that are read, this
says all of the reader: it takes the text of one value from the front of a
stream and does not look at what follows (`read?_eq_some_iff`).
-/

namespace WireModel

namespace Json

variable {t s rest raw : Text} {b : UInt8} {fuel depth : Nat} {lenient after : Bool}
  {c stop : Cursor} {word : Text}

/-! ## The text of a value is read whatever follows it -/

theorem expect?_head : Cursor.expect? b ⟨b :: t, lenient⟩ = some ⟨t, lenient⟩ :=
  expect?_eq_some_iff.mpr ⟨rfl, rfl⟩

theorem expect?_of_ne {mark : UInt8} (h : b ≠ mark) :
    Cursor.expect? mark ⟨b :: t, lenient⟩ = none := by
  simp [Cursor.expect?, h]

theorem skipSpace_spaces {a : Text} (ha : IsSpaces a) :
    Cursor.skipSpace ⟨a ++ t, lenient⟩ = Cursor.skipSpace ⟨t, lenient⟩ := by
  rw [Cursor.skipSpace, Cursor.skipSpace, skipSpace_append ha]

theorem value?_spaces {a : Text} (ha : IsSpaces a) :
    stream.value? fuel depth ⟨a ++ t, lenient⟩ = stream.value? fuel depth ⟨t, lenient⟩ := by
  rw [← value?_skipSpace, skipSpace_spaces ha, value?_skipSpace]

/-- A mark that ends a value, and is no white space. -/
def IsMark (b : UInt8) : Prop := isSpace b = false ∧ isNumberByte b = false

theorem isMark_comma : IsMark ','.toUInt8 := ⟨by decide, by decide⟩

theorem isMark_bracket : IsMark ']'.toUInt8 := ⟨by decide, by decide⟩

theorem isMark_brace : IsMark '\x7d'.toUInt8 := ⟨by decide, by decide⟩

theorem isNumberByte_of_isSpace (h : isSpace b = true) : isNumberByte b = false := by
  simp only [isSpace, Bool.or_eq_true, beq_iff_eq] at h
  rcases h with ((rfl | rfl) | rfl) | rfl <;> decide

theorem Ends.spaces_append {v : Value} {a : Text} (h : Ends v rest) (ha : IsSpaces a) :
    Ends v (a ++ rest) := by
  intro hv x hx
  cases a with
  | nil => exact h hv x hx
  | cons y a =>
    obtain rfl : y = x := Option.some.inj hx
    exact isNumberByte_of_isSpace (ha _ List.mem_cons_self)

theorem ends_nil {v : Value} : Ends v [] := fun _ _ hx => nomatch hx

theorem ends_of_isMark {v : Value} (hb : IsMark b) : Ends v (b :: t) := by
  intro _ x hx
  obtain rfl : b = x := Option.some.inj hx
  exact hb.2

theorem head_of_mem_wordValues {w : UInt8} {ws : Text} {v : Value}
    (hw : (w :: ws, v) ∈ wordValues) : isSpace w = false ∧
      (w ≠ '"'.toUInt8 ∧ w ≠ '['.toUInt8 ∧ w ≠ '\x7b'.toUInt8) ∧
      (Text.isDigit w || w == '-'.toUInt8) = false ∧ isParting w = false ∧ w ≠ ']'.toUInt8 := by
  simp only [wordValues, List.mem_cons, Prod.mk.injEq, List.not_mem_nil, or_false] at hw
  rcases hw with ⟨hw, -⟩ | ⟨hw, -⟩ | ⟨hw, -⟩ <;>
    rw [(List.cons.inj hw).1] <;> decide

theorem wordAt?_of_find {kind : ScalarKind}
    (hfind : (words.find? fun w => w.1.head? == c.rest.head?) = some (word, kind))
    (hword : lenientWord? word c = some stop) :
    stream.wordAt? c = some (.scalar kind word 0, stop) := by
  have hword : stream.word? word c = some stop := hword
  simp [Dialect.wordAt?, hfind, hword]

theorem wordAt?_append {w : UInt8} {ws : Text} {v : Value} (hw : (w :: ws, v) ∈ wordValues)
    (h : IsWord lenient ws t after) :
    ∃ x, stream.wordAt? ⟨w :: (t ++ rest), lenient⟩ = some (x, ⟨rest, after⟩) ∧ x.toValue = v := by
  have hword := (IsWord.letter (w := w) h).lenientWord?_append rest
  simp only [wordValues, List.mem_cons, Prod.mk.injEq, List.not_mem_nil, or_false] at hw
  rcases hw with ⟨hw, rfl⟩ | ⟨hw, rfl⟩ | ⟨hw, rfl⟩
  · obtain ⟨rfl, rfl⟩ := List.cons.inj hw
    exact ⟨.scalar .null "null" 0, wordAt?_of_find rfl hword, rfl⟩
  · obtain ⟨rfl, rfl⟩ := List.cons.inj hw
    exact ⟨.scalar (.bool true) "true" 0, wordAt?_of_find rfl hword, rfl⟩
  · obtain ⟨rfl, rfl⟩ := List.cons.inj hw
    exact ⟨.scalar (.bool false) "false" 0, wordAt?_of_find rfl hword, rfl⟩

theorem IsKey.key?_append {k key : Text} (h : IsKey lenient k key after) (rest : Text) :
    ∃ d, stream.key? ⟨k ++ rest, lenient⟩ = some (d, ⟨rest, after⟩) ∧ d.keyText = key := by
  cases h with
  | @text raw _ h =>
    refine ⟨.scalar .text key 0, ?_, rfl⟩
    have hbody := h.stringBody?_append rest
    have hopen : Cursor.expect? '"'.toUInt8
        ⟨'"'.toUInt8 :: (raw ++ ['"'.toUInt8]) ++ rest, lenient⟩ =
        some ⟨raw ++ '"'.toUInt8 :: rest, lenient⟩ :=
      expect?_eq_some_iff.mpr ⟨by simp, rfl⟩
    rw [Dialect.key?, hopen]
    change Option.map _ (Option.map _ (stringBody? {} 0 (raw ++ '"'.toUInt8 :: rest))) = _
    rw [hbody]
    rfl
  | @null _ t h =>
    have hword := (IsWord.letter (w := 'n'.toUInt8) h).lenientWord?_append rest
    have hopen : Cursor.expect? '"'.toUInt8 ⟨'n'.toUInt8 :: t ++ rest, lenient⟩ = none :=
      expect?_of_ne (by decide)
    refine ⟨.scalar .text [] 0, ?_, rfl⟩
    rw [Dialect.key?, hopen]
    exact congrArg (Option.map _) hword

/-! ### Where the texts start -/

theorem IsValue.head {v : Value} (h : IsValue depth lenient t v after) :
    ∃ b u, t = b :: u ∧ isSpace b = false ∧ isParting b = false ∧ b ≠ ']'.toUInt8 := by
  cases h with
  | text h | emptyList h | list h | emptyMap h | map h =>
    exact ⟨_, _, rfl, by decide, by decide, by decide⟩
  | number h =>
    obtain ⟨b, hhead, hb⟩ := h.head
    obtain ⟨u, rfl⟩ := List.head?_eq_some_iff.mp hhead
    refine ⟨b, u, rfl, isSpace_of_number hb, Bool.eq_false_iff.mpr fun hparting => ?_, ?_⟩
    · simp only [isParting, Bool.or_eq_true, beq_iff_eq] at hparting
      rcases hparting with rfl | rfl <;> exact absurd hb (by decide)
    · rintro rfl
      exact absurd hb (by decide)
  | @word _ _ _ w ws u _ hw h =>
    obtain ⟨hspace, -, -, hparting, hne⟩ := head_of_mem_wordValues hw
    exact ⟨w, u, rfl, hspace, hparting, hne⟩

theorem IsElement.not_closed {v : Value} (h : IsElement depth lenient t v after) :
    (Cursor.skipSpace ⟨t ++ rest, lenient⟩).expect? ']'.toUInt8 = none := by
  obtain ⟨ha, h, hb⟩ := h
  obtain ⟨b, u, rfl, hspace, -, hne⟩ := h.head
  rw [List.append_assoc, skipSpace_spaces ha, List.cons_append, List.cons_append,
    skipSpace_head hspace, expect?_of_ne hne]

theorem IsItems.not_closed {vs : List Value} (h : IsItems depth lenient t vs after) :
    (Cursor.skipSpace ⟨t ++ rest, lenient⟩).expect? ']'.toUInt8 = none := by
  cases h with
  | last h | cons h hs =>
    rw [List.append_assoc]
    exact h.not_closed

theorem IsKey.head {k key : Text} (h : IsKey lenient k key after) :
    ∃ b u, k = b :: u ∧ isSpace b = false ∧ b ≠ '\x7d'.toUInt8 := by
  cases h with
  | text h | null h => exact ⟨_, _, rfl, by decide, by decide⟩

theorem IsMember.not_closed {e : Text × Value} (h : IsMember depth lenient t e after) :
    (Cursor.skipSpace ⟨t ++ rest, lenient⟩).expect? '\x7d'.toUInt8 = none := by
  obtain ⟨ha, hk, hb, h⟩ := h
  obtain ⟨b, u, rfl, hspace, hne⟩ := hk.head
  rw [List.append_assoc, skipSpace_spaces ha, List.cons_append, List.cons_append,
    skipSpace_head hspace, expect?_of_ne hne]

theorem IsMembers.not_closed {es : List (Text × Value)} (h : IsMembers depth lenient t es after) :
    (Cursor.skipSpace ⟨t ++ rest, lenient⟩).expect? '\x7d'.toUInt8 = none := by
  cases h with
  | last h | cons h hs =>
    rw [List.append_assoc]
    exact h.not_closed

/-! ### By the fuel -/

/-- With so much fuel, the text of a value is read whatever follows it, and so are items and members
up to the mark that closes them. Two steps for each byte are enough. -/
structure ReadsText (fuel : Nat) : Prop where
  value {depth : Nat} {lenient after : Bool} {t : Text} {v : Value}
    (h : IsValue depth lenient t v after) (hfuel : 2 * t.length ≤ fuel) {rest : Text}
    (hrest : Ends v rest) :
    ∃ x, stream.value? fuel depth ⟨t ++ rest, lenient⟩ = some (x, ⟨rest, after⟩) ∧ x.toValue = v
  items {depth : Nat} {lenient after : Bool} {t : Text} {vs : List Value}
    (h : IsItems depth lenient t vs after) (hfuel : 2 * t.length ≤ fuel) (rest : Text) :
    ∃ xs, stream.items? fuel depth ⟨t ++ rest, lenient⟩ = some (xs, ⟨rest, after⟩) ∧
      Doc.toValues xs = vs
  members {depth : Nat} {lenient after : Bool} {t : Text} {es : List (Text × Value)}
    (h : IsMembers depth lenient t es after) (hfuel : 2 * t.length ≤ fuel) (rest : Text) :
    ∃ xs, stream.members? fuel depth ⟨t ++ rest, lenient⟩ = some (xs, ⟨rest, after⟩) ∧
      Doc.toEntries xs = es

variable {v : Value} {vs : List Value} {es : List (Text × Value)} {mark : UInt8}

theorem ReadsText.value_succ (hreads : ReadsText fuel) (h : IsValue depth lenient t v after)
    (hfuel : 2 * t.length ≤ fuel + 1) (hrest : Ends v rest) :
    ∃ x, stream.value? (fuel + 1) depth ⟨t ++ rest, lenient⟩ = some (x, ⟨rest, after⟩) ∧
      x.toValue = v := by
  cases h with
  | @text _ _ raw u h =>
    refine ⟨.scalar .text u 0, ?_, rfl⟩
    rw [List.cons_append, List.append_assoc, value?_text]
    change Option.map _ (stringBody? {} 0 (raw ++ '"'.toUInt8 :: rest)) = _
    rw [h.stringBody?_append rest]
    rfl
  | number h =>
    obtain ⟨b, hhead, hb⟩ := h.head
    obtain ⟨u, rfl⟩ := List.head?_eq_some_iff.mp hhead
    rw [List.cons_append, value?_number hb]
    exact h.numberAt?_append hrest
  | @word _ _ _ w ws u _ hw h =>
    obtain ⟨hspace, hother, hnumber, -⟩ := head_of_mem_wordValues hw
    rw [List.cons_append, value?_word hspace hother hnumber]
    exact wordAt?_append hw h
  | @emptyList _ _ a ha =>
    refine ⟨.list [] 0, ?_, rfl⟩
    have hclosed : (Cursor.skipSpace ⟨a ++ [']'.toUInt8] ++ rest, lenient⟩).expect? ']'.toUInt8 =
        some ⟨rest, lenient⟩ := by
      rw [List.append_assoc, skipSpace_spaces ha]
      exact expect?_head
    rw [List.cons_append, value?_list, hclosed]
  | list h =>
    rw [List.length_cons] at hfuel
    obtain ⟨xs, hxs, hvs⟩ := hreads.items h (by omega) rest
    refine ⟨.list xs 0, ?_, congrArg Value.list hvs⟩
    rw [List.cons_append, value?_list, h.not_closed, hxs]
    rfl
  | @emptyMap _ _ a ha =>
    refine ⟨.object [] 0, ?_, toValue_emptyObject⟩
    have hclosed : (Cursor.skipSpace ⟨a ++ ['\x7d'.toUInt8] ++ rest, lenient⟩).expect?
        '\x7d'.toUInt8 = some ⟨rest, lenient⟩ := by
      rw [List.append_assoc, skipSpace_spaces ha]
      exact expect?_head
    rw [List.cons_append, value?_map, hclosed]
  | map h =>
    rw [List.length_cons] at hfuel
    obtain ⟨xs, hxs, hes⟩ := hreads.members h (by omega) rest
    refine ⟨.object xs 0, ?_, congrArg (fun es => Value.map (Text.lastEntries es)) hes⟩
    rw [List.cons_append, value?_map, h.not_closed, hxs]
    rfl

/-- A value with white space around it is read up to the mark behind it. -/
theorem ReadsText.element (hreads : ReadsText fuel) (h : IsElement depth lenient t v after)
    (hfuel : 2 * t.length ≤ fuel) (hmark : IsMark mark) (rest : Text) :
    ∃ x mid, stream.value? fuel depth ⟨t ++ mark :: rest, lenient⟩ = some (x, mid) ∧
      mid.skipSpace = ⟨mark :: rest, after⟩ ∧ x.toValue = v := by
  obtain @⟨_, _, _, a, t, b, v, ha, h, hb⟩ := h
  simp only [List.length_append] at hfuel
  have hends : Ends v (b ++ mark :: rest) := (ends_of_isMark hmark).spaces_append hb
  obtain ⟨x, hx, hv⟩ := hreads.value h (by omega) hends
  refine ⟨x, ⟨b ++ mark :: rest, after⟩, ?_, ?_, hv⟩
  · rw [List.append_assoc, value?_spaces ha, List.append_assoc]
    exact hx
  · rw [skipSpace_spaces hb, skipSpace_head hmark.1]

theorem ReadsText.items_succ (hreads : ReadsText fuel) (h : IsItems depth lenient t vs after)
    (hfuel : 2 * t.length ≤ fuel + 1) (rest : Text) :
    ∃ xs, stream.items? (fuel + 1) depth ⟨t ++ rest, lenient⟩ = some (xs, ⟨rest, after⟩) ∧
      Doc.toValues xs = vs := by
  cases h with
  | last h =>
    rw [List.length_append, List.length_singleton] at hfuel
    obtain ⟨x, mid, hx, hmid, hv⟩ :=
      hreads.element h (by omega) isMark_bracket rest
    refine ⟨[x], ?_, congrArg (· :: []) hv⟩
    have hcomma : (⟨']'.toUInt8 :: rest, after⟩ : Cursor).expect? ','.toUInt8 = none :=
      expect?_of_ne (by decide)
    rw [Dialect.items?, List.append_assoc, List.singleton_append, hx]
    dsimp only
    rw [hmid, hcomma, expect?_head]
  | cons h hs =>
    rw [List.length_append, List.length_cons] at hfuel
    obtain ⟨x, mid, hx, hmid, hv⟩ :=
      hreads.element h (by omega) isMark_comma (_ ++ rest)
    obtain ⟨xs, hxs, hvs⟩ := hreads.items hs (by omega) rest
    refine ⟨x :: xs, ?_, by rw [Doc.toValues, hv, hvs]⟩
    rw [Dialect.items?, List.append_assoc, List.cons_append, hx]
    dsimp only
    rw [hmid, expect?_head]
    dsimp only
    rw [hxs]
    rfl

/-- A member is read up to the mark behind it. -/
theorem ReadsText.member (hreads : ReadsText fuel) {e : Text × Value}
    (h : IsMember depth lenient t e after) (hfuel : 2 * t.length ≤ fuel) (hmark : IsMark mark)
    (rest : Text) :
    ∃ k x colon next mid,
      stream.key? (Cursor.skipSpace ⟨t ++ mark :: rest, lenient⟩) = some (k, colon) ∧
      colon.skipSpace.expect? ':'.toUInt8 = some next ∧
      stream.value? fuel depth next = some (x, mid) ∧
      mid.skipSpace = ⟨mark :: rest, after⟩ ∧ (k.keyText, x.toValue) = e := by
  obtain @⟨_, _, between, _, a, k, b, t, key, v, ha, hk, hb, h⟩ := h
  simp only [List.length_append, List.length_cons] at hfuel
  obtain ⟨x, mid, hx, hmid, hv⟩ := hreads.element h (by omega) hmark rest
  obtain ⟨d, hd, hkey⟩ := hk.key?_append (b ++ ':'.toUInt8 :: (t ++ mark :: rest))
  obtain ⟨x0, u, rfl, hspace, -⟩ := hk.head
  refine ⟨d, x, ⟨b ++ ':'.toUInt8 :: (t ++ mark :: rest), between⟩, _, mid, ?_, ?_, hx, hmid,
    by rw [hkey, hv]⟩
  · rw [List.append_assoc, skipSpace_spaces ha, List.append_assoc, List.cons_append,
      skipSpace_head hspace, List.append_assoc]
    exact hd
  · rw [skipSpace_spaces hb, skipSpace_head (by decide), expect?_head]

theorem ReadsText.members_succ (hreads : ReadsText fuel) (h : IsMembers depth lenient t es after)
    (hfuel : 2 * t.length ≤ fuel + 1) (rest : Text) :
    ∃ xs, stream.members? (fuel + 1) depth ⟨t ++ rest, lenient⟩ = some (xs, ⟨rest, after⟩) ∧
      Doc.toEntries xs = es := by
  cases h with
  | last h =>
    rw [List.length_append, List.length_singleton] at hfuel
    obtain ⟨k, x, colon, next, mid, hk, hcolon, hx, hmid, he⟩ :=
      hreads.member h (by omega) isMark_brace rest
    refine ⟨[(k, x)], ?_, congrArg (· :: []) he⟩
    have hcomma : (⟨'\x7d'.toUInt8 :: rest, after⟩ : Cursor).expect? ','.toUInt8 = none :=
      expect?_of_ne (by decide)
    rw [Dialect.members?, List.append_assoc, List.singleton_append, hk]
    dsimp only
    rw [hcolon]
    dsimp only
    rw [hx]
    dsimp only
    rw [hmid, hcomma, expect?_head]
  | cons h hs =>
    rw [List.length_append, List.length_cons] at hfuel
    obtain ⟨k, x, colon, next, mid, hk, hcolon, hx, hmid, he⟩ :=
      hreads.member h (by omega) isMark_comma (_ ++ rest)
    obtain ⟨xs, hxs, hes⟩ := hreads.members hs (by omega) rest
    refine ⟨(k, x) :: xs, ?_, by rw [Doc.toEntries, he, hes]⟩
    rw [Dialect.members?, List.append_assoc, List.cons_append, hk]
    dsimp only
    rw [hcolon]
    dsimp only
    rw [hx]
    dsimp only
    rw [hmid, expect?_head]
    dsimp only
    rw [hxs]
    rfl

theorem readsText (fuel : Nat) : ReadsText fuel := by
  induction fuel with
  | zero =>
    -- no text of a value, of items or of members is empty
    refine ⟨fun h hfuel => ?_, fun h hfuel => ?_, fun h hfuel => ?_⟩
    · obtain ⟨b, u, rfl, -⟩ := h.head
      rw [List.length_cons] at hfuel
      omega
    · cases h <;>
      · rw [List.length_append, List.length_cons] at hfuel
        omega
    · cases h <;>
      · rw [List.length_append, List.length_cons] at hfuel
        omega
  | succ fuel ih =>
    exact ⟨fun h hfuel _ hrest => ih.value_succ h hfuel hrest, ih.items_succ, ih.members_succ⟩

/-- **A value with white space around it** is read up to the white space behind it. -/
theorem IsElement.value? (h : IsElement depth lenient t v after) (hfuel : 2 * t.length ≤ fuel) :
    ∃ x b, stream.value? fuel depth ⟨t, lenient⟩ = some (x, ⟨b, after⟩) ∧ IsSpaces b ∧
      x.toValue = v := by
  obtain @⟨_, _, _, a, t, b, v, ha, h, hb⟩ := h
  simp only [List.length_append] at hfuel
  have hends : Ends v b := by simpa using ends_nil.spaces_append hb
  obtain ⟨x, hx, hv⟩ := (readsText fuel).value h (by omega) hends
  exact ⟨x, b, by rw [value?_spaces ha, hx], hb, hv⟩

/-! ## Streams -/

/-- What may stand before the value of a stream: white space, and one mark in it that parts
values. -/
inductive IsLead : Text → Prop
  | spaces {a : Text} (ha : IsSpaces a) : IsLead a
  | parting {a b : Text} {mark : UInt8} (ha : IsSpaces a) (hmark : isParting mark = true)
      (hb : IsSpaces b) : IsLead (a ++ mark :: b)

/-- **What a stream starts with**, in front of the rest: the text of one value
that the rest does not go on with. Where nothing follows, a word may lack
its last letter. -/
inductive Starts (v : Value) : (text rest : Text) → Prop
  | whole {a t rest : Text} {after : Bool} (ha : IsLead a) (h : IsValue maxDepth true t v after)
      (hrest : Ends v rest) : Starts v (a ++ t) rest
  | cut {a t : Text} (ha : IsLead a) (h : IsCutWord t v) : Starts v (a ++ t) []

/-- A text without white space and one mark at its start. -/
def withoutLead (t : Text) : Text :=
  if (skipSpace t).head?.any isParting then (skipSpace t).drop 1 else skipSpace t

theorem start?_eq (t : Text) : Json.start? t = (stream.start? (withoutLead t)).map (·.1) := rfl

theorem exists_isLead (s : Text) :
    ∃ a, s = a ++ withoutLead s ∧ ∀ b, IsSpaces b → IsLead (a ++ b) := by
  obtain ⟨a, hs, ha⟩ := exists_skipSpace s
  rw [withoutLead]
  split
  · rename_i hparting
    cases hskip : skipSpace s with
    | nil =>
      rw [hskip] at hparting
      cases hparting
    | cons mark u =>
      rw [hskip] at hs hparting
      refine ⟨a ++ [mark], by simpa using hs, fun b hb => ?_⟩
      rw [List.append_assoc]
      exact .parting ha hparting hb
  · exact ⟨a, hs, fun b hb => .spaces fun x hx => (List.mem_append.mp hx).elim (ha x) (hb x)⟩

/-- The reader goes over what may stand before a value. -/
theorem start?_of_isLead {a : Text} (ha : IsLead a) (hspace : isSpace b = false)
    (hparting : isParting b = false) : ∃ fuel, 2 * (b :: t).length ≤ fuel ∧
      Json.start? (a ++ b :: t) = (stream.value? (fuel + 1) maxDepth ⟨b :: t, true⟩).map
        fun x => x.1 := by
  have hskip : skipSpace (b :: t) = b :: t := skipSpace_of_head fun x hx => by
    obtain rfl : b = x := Option.some.inj hx
    exact hspace
  cases ha with
  | spaces ha =>
    refine ⟨2 * (b :: t).length + 1, Nat.le_succ _, ?_⟩
    have hlead : withoutLead (a ++ b :: t) = b :: t := by
      rw [withoutLead, skipSpace_append ha, hskip]
      simp [hparting]
    rw [start?_eq, hlead, Dialect.start?, Option.map_map]
    rfl
  | @parting a c mark ha hmark hc =>
    refine ⟨2 * (c ++ b :: t).length + 1, ?_, ?_⟩
    · rw [List.length_append]
      omega
    have hmarkSpace : isSpace mark = false := by
      simp only [isParting, Bool.or_eq_true, beq_iff_eq] at hmark
      rcases hmark with rfl | rfl <;> decide
    have hhead : skipSpace (mark :: (c ++ b :: t)) = mark :: (c ++ b :: t) :=
      skipSpace_of_head fun x hx => by
        obtain rfl : mark = x := Option.some.inj hx
        exact hmarkSpace
    have hlead : withoutLead (a ++ mark :: (c ++ b :: t)) = c ++ b :: t := by
      rw [withoutLead, skipSpace_append ha, hhead]
      simp [hmark]
    rw [List.append_assoc, List.cons_append, start?_eq, hlead, Dialect.start?, Option.map_map,
      value?_spaces hc]
    rfl

/-- What is read of a stream is what it starts with. -/
theorem exists_starts (h : Json.read? s = some v) :
    ∃ text rest, s = text ++ rest ∧ Starts v text rest := by
  obtain ⟨x, hx, rfl⟩ := Option.map_eq_some_iff.mp h
  rw [start?_eq] at hx
  obtain ⟨⟨x, rest⟩, hstart, rfl⟩ := Option.map_eq_some_iff.mp hx
  obtain ⟨⟨x, stop⟩, hvalue, heq⟩ := Option.map_eq_some_iff.mp hstart
  obtain ⟨rfl, rfl⟩ := Prod.mk.inj heq
  obtain ⟨a, hs, ha⟩ := exists_isLead s
  rcases (takesText _).value hvalue with
    ⟨b, t, hrest, hb, hvalue, hends⟩ | ⟨hnil, -, b, t, hrest, hb, hcut⟩
  · refine ⟨a ++ b ++ t, stop.rest, ?_, .whole (ha b hb) hvalue hends⟩
    rw [hs, List.append_assoc, List.append_assoc]
    exact congrArg (a ++ ·) hrest
  · refine ⟨a ++ b ++ t, [], ?_, .cut (ha b hb) hcut⟩
    rw [hs, List.append_nil, List.append_assoc]
    exact congrArg (a ++ ·) hrest

theorem isCutWord_iff : IsCutWord t v ↔
    (t = "nul" ∧ v = .null) ∨ (t = "tru" ∧ v = .bool true) ∨ (t = "fals" ∧ v = .bool false) := by
  constructor
  · rintro ⟨-, w, hw⟩
    have hcut {word : Text} (h : t ++ [w] = word) : t = word.dropLast :=
      List.dropLast_concat.symm.trans (congrArg List.dropLast h)
    simp only [wordValues, List.mem_cons, Prod.mk.injEq, List.not_mem_nil, or_false] at hw
    exact hw.imp (And.imp_left hcut) (Or.imp (And.imp_left hcut) (And.imp_left hcut))
  · rintro (⟨rfl, rfl⟩ | ⟨rfl, rfl⟩ | ⟨rfl, rfl⟩)
    · exact ⟨by decide, 'l'.toUInt8, List.mem_cons_self⟩
    · exact ⟨by decide, 'e'.toUInt8, List.mem_cons_of_mem _ List.mem_cons_self⟩
    · exact ⟨by decide, 'e'.toUInt8,
        List.mem_cons_of_mem _ (List.mem_cons_of_mem _ List.mem_cons_self)⟩

theorem IsCutWord.head (h : IsCutWord t v) :
    ∃ b u, t = b :: u ∧ isSpace b = false ∧ isParting b = false := by
  rcases isCutWord_iff.mp h with ⟨rfl, -⟩ | ⟨rfl, -⟩ | ⟨rfl, -⟩ <;>
    exact ⟨_, _, rfl, by decide, by decide⟩

/-- **A word without its last letter** is read at the very end. -/
theorem IsCutWord.value? (h : IsCutWord t v) :
    ∃ x, stream.value? (fuel + 1) depth ⟨t, true⟩ = some (x, ⟨[], false⟩) ∧ x.toValue = v := by
  rcases isCutWord_iff.mp h with ⟨rfl, rfl⟩ | ⟨rfl, rfl⟩ | ⟨rfl, rfl⟩
  · exact ⟨.scalar .null "null" 0, (value?_word (by decide) (by decide) (by decide)).trans
      (wordAt?_of_find rfl rfl), rfl⟩
  · exact ⟨.scalar (.bool true) "true" 0, (value?_word (by decide) (by decide) (by decide)).trans
      (wordAt?_of_find rfl rfl), rfl⟩
  · exact ⟨.scalar (.bool false) "false" 0, (value?_word (by decide) (by decide) (by decide)).trans
      (wordAt?_of_find rfl rfl), rfl⟩

/-- **The reader takes the text of one value** from the front of a stream, and
does not look at what follows. -/
theorem read?_eq_some_iff :
    Json.read? s = some v ↔ ∃ text rest, s = text ++ rest ∧ Starts v text rest := by
  refine ⟨exists_starts, ?_⟩
  rintro ⟨text, rest, rfl, h⟩
  cases h with
  | @whole a t _ _ ha h hrest =>
    obtain ⟨b, u, rfl, hspace, hparting, -⟩ := h.head
    obtain ⟨fuel, hfuel, hstart⟩ := start?_of_isLead (t := u ++ rest) ha hspace hparting
    obtain ⟨x, hx, rfl⟩ := (readsText (fuel + 1)).value h
      (by simp only [List.length_cons, List.length_append] at hfuel ⊢; omega) hrest
    rw [List.append_assoc, List.cons_append, Json.read?, hstart]
    rw [List.cons_append] at hx
    rw [hx]
    rfl
  | @cut a t ha h =>
    obtain ⟨b, u, rfl, hspace, hparting⟩ := h.head
    obtain ⟨fuel, -, hstart⟩ := start?_of_isLead (t := u) ha hspace hparting
    obtain ⟨x, hx, rfl⟩ := h.value?
    rw [List.append_nil, Json.read?, hstart, hx]
    rfl

end Json

end WireModel
