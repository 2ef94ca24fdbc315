import Mathlib.Data.List.TakeWhile
import Mathlib.Tactic.FinCases
import WireModel.Text.Rune

/-!
# Runes — the characters a text is made of

The bytes of the runes of a text are the text again
(`Text.ofRunes_runes`), so whatever is said of the runes is said of the
text. Trimming drops the white space runes at both ends
(`Text.runes_trimStart`, `Text.exists_blanks_trim`).

Runes of a text put together are the runes of the parts only if the
first part ends with a whole character (`Text.IsWhole`); runs of white
space and ASCII texts do.
-/

namespace WireModel

namespace Text

/-! ## The bytes of runes -/

theorem toUInt8_eq {n : Nat} {b : UInt8} (h : n = b.toNat) : n.toUInt8 = b := by
  subst h
  simp

theorem ofRune_one {a : UInt8} (ha : a.toNat < 0x80) : ofRune a.toNat = [a] := by
  rw [ofRune, if_pos ha, toUInt8_eq rfl]

theorem ofRune_two {a b : UInt8} (ha : 0xC2 ≤ a.toNat ∧ a.toNat < 0xE0)
    (hb : continues 0x80 0xBF b = true) :
    ofRune (a.toNat % 0x20 * 0x40 + sixBits b) = [a, b] := by
  simp only [continues, Bool.and_eq_true, decide_eq_true_eq] at hb
  rw [sixBits]
  rw [ofRune, if_neg (by omega), if_pos (by omega), toUInt8_eq (b := a) (by omega),
    toUInt8_eq (b := b) (by omega)]

theorem ofRune_three {a b c : UInt8} (ha : 0xE0 ≤ a.toNat ∧ a.toNat < 0xF0) {lo hi : Nat}
    (hlo : lo = if a.toNat = 0xE0 then 0xA0 else 0x80) (hhi : hi ≤ 0xBF)
    (hb : continues lo hi b = true) (hc : continues 0x80 0xBF c = true) :
    ofRune ((a.toNat % 0x10 * 0x40 + sixBits b) * 0x40 + sixBits c) = [a, b, c] := by
  simp only [continues, Bool.and_eq_true, decide_eq_true_eq] at hb hc
  have hlead : 0x80 ≤ b.toNat ∧ (a.toNat = 0xE0 → 0xA0 ≤ b.toNat) := by
    split at hlo <;> omega
  simp only [sixBits]
  rw [ofRune, if_neg (by omega), if_neg (by omega), if_pos (by omega),
    toUInt8_eq (b := a) (by omega), toUInt8_eq (b := b) (by omega), toUInt8_eq (b := c) (by omega)]

theorem ofRune_four {a b c d : UInt8} (ha : 0xF0 ≤ a.toNat ∧ a.toNat < 0xF5) {lo hi : Nat}
    (hlo : lo = if a.toNat = 0xF0 then 0x90 else 0x80) (hhi : hi ≤ 0xBF)
    (hb : continues lo hi b = true) (hc : continues 0x80 0xBF c = true)
    (hd : continues 0x80 0xBF d = true) :
    ofRune (((a.toNat % 0x8 * 0x40 + sixBits b) * 0x40 + sixBits c) * 0x40 + sixBits d) =
      [a, b, c, d] := by
  simp only [continues, Bool.and_eq_true, decide_eq_true_eq] at hb hc hd
  have hlead : 0x80 ≤ b.toNat ∧ (a.toNat = 0xF0 → 0x90 ≤ b.toNat) := by
    split at hlo <;> omega
  simp only [sixBits]
  rw [ofRune, if_neg (by omega), if_neg (by omega), if_neg (by omega),
    toUInt8_eq (b := a) (by omega), toUInt8_eq (b := b) (by omega), toUInt8_eq (b := c) (by omega),
    toUInt8_eq (b := d) (by omega)]

/-- **The bytes of the first rune** are the bytes it was read from. -/
theorem bytes_firstRune (a : UInt8) (rest : Text) :
    (firstRune a rest).1.bytes ++ rest.drop (firstRune a rest).2 = a :: rest := by
  simp only [firstRune]
  split
  · rename_i hn
    simp [Rune.bytes, ofRune_one hn]
  split
  · rfl
  split
  · split
    · rename_i b bs
      split
      · rename_i hb
        rw [Rune.bytes, ofRune_two (a := a) (by omega) hb]
        rfl
      · rfl
    · rfl
  split
  · split
    · rename_i b c bs
      generalize hlo : (if a.toNat = 0xE0 then 0xA0 else 0x80) = lo
      have hhi : (if a.toNat = 0xED then 0x9F else 0xBF) ≤ 0xBF := by split <;> omega
      generalize (if a.toNat = 0xED then 0x9F else 0xBF) = hi at hhi
      split
      · rename_i hbc
        rw [Bool.and_eq_true] at hbc
        rw [Rune.bytes, ofRune_three (a := a) (by omega) hlo.symm hhi hbc.1 hbc.2]
        rfl
      · rfl
    · rfl
  split
  · split
    · rename_i b c d bs
      generalize hlo : (if a.toNat = 0xF0 then 0x90 else 0x80) = lo
      have hhi : (if a.toNat = 0xF4 then 0x8F else 0xBF) ≤ 0xBF := by split <;> omega
      generalize (if a.toNat = 0xF4 then 0x8F else 0xBF) = hi at hhi
      split
      · rename_i hbcd
        rw [Bool.and_eq_true, Bool.and_eq_true] at hbcd
        rw [Rune.bytes, ofRune_four (a := a) (by omega) hlo.symm hhi hbcd.1.1 hbcd.1.2 hbcd.2]
        rfl
      · rfl
    · rfl
  · rfl

theorem runesAfter_eq (skip : Nat) (t : Text) : runesAfter skip t = runes (t.drop skip) := by
  induction t generalizing skip with
  | nil => cases skip <;> rfl
  | cons b bs ih =>
    cases skip with
    | zero => rfl
    | succ n => exact ih n

theorem runes_cons (b : UInt8) (bs : Text) :
    runes (b :: bs) = (firstRune b bs).1 :: runes (bs.drop (firstRune b bs).2) := by
  rw [← runesAfter_eq]
  rfl

/-- **The bytes of its runes are the text again.** -/
theorem ofRunes_runes (t : Text) : ofRunes t.runes = t := by
  match t with
  | [] => rfl
  | b :: bs =>
    rw [runes_cons, ofRunes, List.flatMap_cons, ← ofRunes, ofRunes_runes]
    exact bytes_firstRune b bs
termination_by t.length
decreasing_by
  rw [List.length_drop, List.length_cons]
  omega

theorem ofRunes_append (rs ss : List Rune) : ofRunes (rs ++ ss) = ofRunes rs ++ ofRunes ss :=
  List.flatMap_append

/-! ## Whole characters -/

/-- **A text ends with a whole character** if what follows it does not
change how it is read. -/
def IsWhole (s : Text) : Prop := ∀ rest, runes (s ++ rest) = runes s ++ runes rest

theorem isWhole_nil : IsWhole [] := fun _ => rfl

theorem IsWhole.append {s t : Text} (hs : IsWhole s) (ht : IsWhole t) : IsWhole (s ++ t) := by
  intro rest
  rw [List.append_assoc, hs, ht, hs, List.append_assoc]

theorem runes_cons_of_lt {b : UInt8} (hb : b.toNat < 0x80) (bs : Text) :
    runes (b :: bs) = .code b.toNat :: runes bs := by
  have hfirst : firstRune b bs = (.code b.toNat, 0) := by simp [firstRune, hb]
  rw [runes_cons, hfirst]
  rfl

theorem isWhole_of_lt {s : Text} (hs : ∀ b ∈ s, b.toNat < 0x80) : IsWhole s := by
  induction s with
  | nil => exact isWhole_nil
  | cons b s ih =>
    obtain ⟨hb, hs⟩ := List.forall_mem_cons.mp hs
    intro rest
    rw [List.cons_append, runes_cons_of_lt hb, runes_cons_of_lt hb, ih hs, List.cons_append]

/-- The code points of white space, one by one. -/
theorem mem_of_isBlankCode {c : Nat} (h : Rune.isBlankCode c = true) :
    c ∈ [0x09, 0x0A, 0x0B, 0x0C, 0x0D, 0x20, 0x85, 0xA0, 0x1680, 0x2000, 0x2001, 0x2002, 0x2003,
      0x2004, 0x2005, 0x2006, 0x2007, 0x2008, 0x2009, 0x200A, 0x2028, 0x2029, 0x202F, 0x205F,
      0x3000] := by
  simp only [Rune.isBlankCode, Bool.or_eq_true, Bool.and_eq_true, decide_eq_true_eq,
    beq_iff_eq] at h
  simp only [List.mem_cons, List.not_mem_nil, or_false]
  omega

/-- White space is read as it was written. -/
theorem runes_ofRune_append {c : Nat} (h : Rune.isBlankCode c = true) (rest : Text) :
    runes (ofRune c ++ rest) = .code c :: runes rest := by
  have hmem := mem_of_isBlankCode h
  fin_cases hmem <;> rfl

/-- **A run of white space**: any number of white space characters, each
written as UTF-8. -/
def IsBlanks (t : Text) : Prop :=
  ∃ cs : List Nat, (∀ c ∈ cs, Rune.isBlankCode c = true) ∧ t = cs.flatMap ofRune

theorem isBlanks_nil : IsBlanks [] := ⟨[], by simp, rfl⟩

theorem IsBlanks.append {s t : Text} (hs : IsBlanks s) (ht : IsBlanks t) : IsBlanks (s ++ t) := by
  obtain ⟨cs, hcs, rfl⟩ := hs
  obtain ⟨ds, hds, rfl⟩ := ht
  refine ⟨cs ++ ds, fun c hc => ?_, List.flatMap_append.symm⟩
  rcases List.mem_append.mp hc with hc | hc
  · exact hcs c hc
  · exact hds c hc

theorem runes_blanks_append {cs : List Nat} (h : ∀ c ∈ cs, Rune.isBlankCode c = true)
    (rest : Text) : runes (cs.flatMap ofRune ++ rest) = cs.map .code ++ runes rest := by
  induction cs with
  | nil => rfl
  | cons c cs ih =>
    obtain ⟨hc, hcs⟩ := List.forall_mem_cons.mp h
    rw [List.flatMap_cons, List.append_assoc, runes_ofRune_append hc, ih hcs]
    rfl

theorem runes_blanks {cs : List Nat} (h : ∀ c ∈ cs, Rune.isBlankCode c = true) :
    runes (cs.flatMap ofRune) = cs.map .code := by
  simpa [runes, runesAfter] using runes_blanks_append h []

theorem IsBlanks.isWhole {t : Text} (h : IsBlanks t) : IsWhole t := by
  obtain ⟨cs, hcs, rfl⟩ := h
  intro rest
  rw [runes_blanks_append hcs, runes_blanks hcs]

/-- A run of white space reads as white space, and nothing else does. -/
theorem isBlanks_iff {t : Text} : IsBlanks t ↔ ∀ r ∈ t.runes, r.isBlank = true := by
  constructor
  · rintro ⟨cs, hcs, rfl⟩ r hr
    rw [runes_blanks hcs] at hr
    obtain ⟨c, hc, rfl⟩ := List.mem_map.mp hr
    exact hcs c hc
  · intro h
    refine ⟨t.runes.map Rune.codePoint, fun c hc => ?_, ?_⟩
    · obtain ⟨r, hr, rfl⟩ := List.mem_map.mp hc
      exact h r hr
    · -- a stray byte is no white space, so the code points write the runes
      have hbytes : ∀ r ∈ t.runes, ofRune r.codePoint = r.bytes := by
        intro r hr
        cases r with
        | code c => rfl
        | stray b => cases h _ hr
      rw [List.flatMap_map, List.flatMap_congr hbytes]
      exact (ofRunes_runes t).symm

theorem isBlanks_ofRunes {rs : List Rune} (h : ∀ r ∈ rs, r.isBlank = true) :
    IsBlanks (ofRunes rs) := by
  induction rs with
  | nil => exact isBlanks_nil
  | cons r rs ih =>
    obtain ⟨hr, hrs⟩ := List.forall_mem_cons.mp h
    cases r with
    | code c =>
      have hc : IsBlanks (Rune.code c).bytes :=
        ⟨[c], List.forall_mem_singleton.mpr hr, by simp [Rune.bytes]⟩
      exact hc.append (ih hrs)
    | stray b => cases hr

/-! ## Trimming -/

theorem trimStartAfter_eq (skip : Nat) (t : Text) :
    trimStartAfter skip t = trimStart (t.drop skip) := by
  induction t generalizing skip with
  | nil => cases skip <;> rfl
  | cons b bs ih =>
    cases skip with
    | zero => rfl
    | succ n => exact ih n

theorem trimStart_cons (b : UInt8) (bs : Text) : trimStart (b :: bs) =
    if (firstRune b bs).1.isBlank then trimStart (bs.drop (firstRune b bs).2) else b :: bs := by
  rw [← trimStartAfter_eq]
  rfl

/-- **Trimming drops the white space runes in front.** -/
theorem runes_trimStart (t : Text) : t.trimStart.runes = t.runes.dropWhile Rune.isBlank := by
  match t with
  | [] => rfl
  | b :: bs =>
    rw [trimStart_cons, runes_cons, List.dropWhile_cons]
    split
    · exact runes_trimStart _
    · exact runes_cons b bs
termination_by t.length
decreasing_by
  rw [List.length_drop, List.length_cons]
  omega

theorem trimStart_eq (t : Text) : t.trimStart = ofRunes (t.runes.dropWhile Rune.isBlank) := by
  rw [← runes_trimStart, ofRunes_runes]

theorem exists_blanks_trimStart (t : Text) : ∃ s, IsBlanks s ∧ t = s ++ t.trimStart := by
  refine ⟨ofRunes (t.runes.takeWhile Rune.isBlank),
    isBlanks_ofRunes fun r hr => List.mem_takeWhile_imp hr, ?_⟩
  rw [trimStart_eq, ← ofRunes_append, List.takeWhile_append_dropWhile, ofRunes_runes]

theorem trimStart_blanks_append {s : Text} (hs : IsBlanks s) (t : Text) :
    (s ++ t).trimStart = t.trimStart := by
  rw [trimStart_eq, trimStart_eq, hs.isWhole,
    List.dropWhile_append_of_pos (isBlanks_iff.mp hs)]

/-- A text is blank if it is a run of white space. -/
theorem isBlank_iff {t : Text} : t.isBlank = true ↔ IsBlanks t := by
  rw [isBlank, List.isEmpty_iff]
  constructor
  · intro h
    obtain ⟨s, hs, ht⟩ := exists_blanks_trimStart t
    rw [h, List.append_nil] at ht
    exact ht ▸ hs
  · intro h
    have hnil := trimStart_blanks_append h []
    rwa [List.append_nil] at hnil

/-- **Trimming takes white space away on both sides**, and nothing else. -/
theorem exists_blanks_trim (t : Text) :
    ∃ s u, IsBlanks s ∧ IsBlanks u ∧ t = s ++ t.trim ++ u := by
  obtain ⟨s, hs, ht⟩ := exists_blanks_trimStart t
  refine ⟨s, ofRunes (t.trimStart.runes.reverse.takeWhile Rune.isBlank).reverse, hs,
    isBlanks_ofRunes fun r hr => List.mem_takeWhile_imp (List.mem_reverse.mp hr), ?_⟩
  rw [trim, List.append_assoc, ← ofRunes_append, ← List.reverse_append,
    List.takeWhile_append_dropWhile, List.reverse_reverse, ofRunes_runes]
  exact ht

/-- **A tight text**: whole characters, the first and the last of which
are no white space. -/
structure IsTight (t : Text) : Prop where
  whole : t.IsWhole
  first : ∃ r rs, t.runes = r :: rs ∧ r.isBlank = false
  last : ∃ rs r, t.runes = rs ++ [r] ∧ r.isBlank = false

theorem IsTight.trimStart {t : Text} (ht : t.IsTight) (u : Text) :
    (t ++ u).trimStart = t ++ u := by
  obtain ⟨r, rs, hruns, hr⟩ := ht.first
  rw [trimStart_eq, ht.whole, hruns, List.cons_append, List.dropWhile_cons_of_neg (by simp [hr]),
    ← List.cons_append, ← hruns, ← ht.whole, ofRunes_runes]

/-- **A tight text comes out of the white space around it.** -/
theorem IsTight.trim {s t u : Text} (ht : t.IsTight) (hs : IsBlanks s) (hu : IsBlanks u) :
    (s ++ t ++ u).trim = t := by
  obtain ⟨rs, r, hruns, hr⟩ := ht.last
  have hdrop : (t.runes.reverse.dropWhile Rune.isBlank).reverse = t.runes := by
    rw [hruns, List.reverse_append, List.reverse_singleton, List.singleton_append,
      List.dropWhile_cons_of_neg (by simp [hr]), List.reverse_cons, List.reverse_reverse]
  rw [Text.trim, List.append_assoc, trimStart_blanks_append hs, ht.trimStart, ht.whole,
    List.reverse_append,
    List.dropWhile_append_of_pos fun r hr => isBlanks_iff.mp hu r (List.mem_reverse.mp hr),
    hdrop, ofRunes_runes]

/-- An ASCII character that is no white space. -/
def IsVisible (b : UInt8) : Prop := b.toNat < 0x80 ∧ Rune.isBlankCode b.toNat = false

theorem isTight_enclosed {a b : UInt8} {t : Text} (ha : IsVisible a) (hb : IsVisible b)
    (ht : t.IsWhole) : IsTight (a :: (t ++ [b])) where
  whole := by
    have hone : ∀ {c}, IsVisible c → IsWhole [c] := fun hc =>
      isWhole_of_lt (List.forall_mem_singleton.mpr hc.1)
    exact (hone ha).append (ht.append (hone hb))
  first := ⟨_, _, runes_cons_of_lt ha.1 _, ha.2⟩
  last := by
    refine ⟨.code a.toNat :: t.runes, .code b.toNat, ?_, hb.2⟩
    rw [runes_cons_of_lt ha.1, ht, runes_cons_of_lt hb.1]
    rfl

/-- A word of such characters is tight. -/
theorem isTight_of_isVisible {t : Text} (hne : t ≠ []) (h : ∀ b ∈ t, IsVisible b) : IsTight t := by
  obtain ⟨a, t, rfl⟩ := List.exists_cons_of_ne_nil hne
  have ha := h a List.mem_cons_self
  rcases List.eq_nil_or_concat' t with rfl | ⟨s, b, rfl⟩
  · exact {
      whole := isWhole_of_lt (List.forall_mem_singleton.mpr ha.1)
      first := ⟨_, _, runes_cons_of_lt ha.1 _, ha.2⟩
      last := ⟨[], _, runes_cons_of_lt ha.1 _, ha.2⟩ }
  · refine isTight_enclosed ha (h b (by simp)) (isWhole_of_lt fun c hc => (h c ?_).1)
    simp [hc]

/-! ## Taking all white space away -/

/-- The text without its white space. -/
def withoutBlanks (t : Text) : Text := ofRunes (t.runes.filter fun r => !r.isBlank)

theorem IsWhole.withoutBlanks_append {s : Text} (hs : s.IsWhole) (t : Text) :
    (s ++ t).withoutBlanks = s.withoutBlanks ++ t.withoutBlanks := by
  rw [withoutBlanks, hs, List.filter_append, ofRunes_append]
  rfl

theorem IsBlanks.withoutBlanks {t : Text} (h : t.IsBlanks) : t.withoutBlanks = [] := by
  have hnone : t.runes.filter (fun r => !r.isBlank) = [] := by
    simpa using isBlanks_iff.mp h
  rw [Text.withoutBlanks, hnone]
  rfl

theorem withoutBlanks_of_isVisible {t : Text} (h : ∀ b ∈ t, IsVisible b) :
    t.withoutBlanks = t := by
  have hall : ∀ r ∈ t.runes, (!r.isBlank) = true := by
    induction t with
    | nil => simp [runes, runesAfter]
    | cons b t ih =>
      obtain ⟨hb, ht⟩ := List.forall_mem_cons.mp h
      rw [runes_cons_of_lt hb.1]
      refine List.forall_mem_cons.mpr ⟨?_, ih ht⟩
      simp [Rune.isBlank, Rune.codePoint, hb.2]
  rw [withoutBlanks, List.filter_eq_self.mpr hall, ofRunes_runes]

end Text

end WireModel
