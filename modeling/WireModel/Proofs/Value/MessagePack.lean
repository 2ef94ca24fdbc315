import WireModel.Value.MessagePack

/-!
# MessagePack — the bytes of one object

An object is a scalar, or the head of a list or mapping and as many objects as
the head says. So its own bytes tell where it ends (`IsObject`), and the
reader takes just these from the front of what it is given and leaves the
rest alone (`start?_eq_some_iff`).
-/

namespace WireModel

namespace MessagePack

variable {n size : Nat} {bs p rest : List UInt8}

/-! ## Taking bytes -/

theorem take?_eq_some_iff : take? n bs = some (p, rest) ↔ bs = p ++ rest ∧ p.length = n := by
  rw [take?]
  constructor
  · intro h
    split at h
    · rename_i hlen
      obtain ⟨rfl, rfl⟩ := Prod.mk.inj (Option.some.inj h)
      exact ⟨(List.take_append_drop n bs).symm, hlen⟩
    · cases h
  · rintro ⟨rfl, rfl⟩
    simp

theorem length?_eq_some_iff :
    length? size bs = some (n, rest) ↔ ∃ l, bs = l ++ rest ∧ l.length = size ∧ natOf l = n := by
  simp only [length?, Option.map_eq_some_iff, Prod.exists, Prod.mk.injEq, take?_eq_some_iff]
  constructor
  · rintro ⟨l, _, ⟨rfl, hlen⟩, hn, rfl⟩
    exact ⟨l, rfl, hlen, hn⟩
  · rintro ⟨l, rfl, hlen, hn⟩
    exact ⟨l, rest, ⟨rfl, hlen⟩, hn, rfl⟩

theorem sized?_eq_some_iff : sized? size bs = some (p, rest) ↔
    ∃ l, bs = l ++ p ++ rest ∧ l.length = size ∧ natOf l = p.length := by
  simp only [sized?, Option.bind_eq_some_iff, Prod.exists, length?_eq_some_iff, take?_eq_some_iff]
  constructor
  · rintro ⟨_, _, ⟨l, rfl, hlen, rfl⟩, rfl, hp⟩
    exact ⟨l, (List.append_assoc _ _ _).symm, hlen, hp.symm⟩
  · rintro ⟨l, rfl, hlen, hn⟩
    exact ⟨_, _, ⟨l, List.append_assoc _ _ _, hlen, rfl⟩, rfl, hn.symm⟩

/-! ## Heads -/

/-- The codes of byte strings, with the bytes of their length. -/
def bytesCodes : List (UInt8 × Nat) := [(0xC4, 1), (0xC5, 2), (0xC6, 4)]

/-- The codes of texts, with the bytes of their length. -/
def textCodes : List (UInt8 × Nat) := [(0xD9, 1), (0xDA, 2), (0xDB, 4)]

/-- The codes of lists, with the bytes of their length. -/
def listCodes : List (UInt8 × Nat) := [(0xDC, 2), (0xDD, 4)]

/-- The codes of mappings, with the bytes of their length. -/
def mapCodes : List (UInt8 × Nat) := [(0xDE, 2), (0xDF, 4)]

/-- The codes of integers without a sign, with their kind and bytes. -/
def unsignedCodes : List (UInt8 × IntKind × Nat) :=
  [(0xCC, .uint8, 1), (0xCD, .uint16, 2), (0xCE, .uint32, 4), (0xCF, .uint64, 8)]

/-- The codes of integers with a sign, with their kind and bytes. -/
def signedCodes : List (UInt8 × IntKind × Nat) :=
  [(0xD0, .int8, 1), (0xD1, .int16, 2), (0xD2, .int32, 4), (0xD3, .int64, 8)]

/-- **The bytes of a scalar, or of the head of a list or mapping**: a code that
says all, or a code with the bytes it announces. -/
inductive IsHead : List UInt8 → Head → Prop
  | small {c : UInt8} (hc : c.toNat < 0x80) : IsHead [c] (.scalar (.int .int8 c.toNat))
  | below {c : UInt8} (hc : 0xE0 ≤ c.toNat) : IsHead [c] (.scalar (.int .int8 (c.toNat - 256)))
  | shortMap {c : UInt8} (hc : 0x80 ≤ c.toNat ∧ c.toNat < 0x90) : IsHead [c] (.map (c.toNat - 0x80))
  | shortList {c : UInt8} (hc : 0x90 ≤ c.toNat ∧ c.toNat < 0xA0) :
      IsHead [c] (.list (c.toNat - 0x90))
  | shortText {c : UInt8} {t : Text} (hc : 0xA0 ≤ c.toNat ∧ c.toNat < 0xC0)
      (ht : t.length = c.toNat - 0xA0) : IsHead (c :: t) (.scalar (.text t))
  | null : IsHead [0xC0] (.scalar .null)
  | false : IsHead [0xC2] (.scalar (.bool Bool.false))
  | true : IsHead [0xC3] (.scalar (.bool Bool.true))
  | bytes {c : UInt8} {l bs : List UInt8} (hc : (c, l.length) ∈ bytesCodes)
      (hl : natOf l = bs.length) : IsHead (c :: (l ++ bs)) (.scalar (.bytes bs))
  | text {c : UInt8} {l t : List UInt8} (hc : (c, l.length) ∈ textCodes)
      (hl : natOf l = t.length) : IsHead (c :: (l ++ t)) (.scalar (.text t))
  | float32 {p : List UInt8} (hp : p.length = 4) : IsHead (0xCA :: p) (.scalar (.float32 (natOf p)))
  | float64 {p : List UInt8} (hp : p.length = 8) : IsHead (0xCB :: p) (.scalar (.float64 (natOf p)))
  | unsigned {c : UInt8} {kind : IntKind} {p : List UInt8}
      (hc : (c, kind, p.length) ∈ unsignedCodes) : IsHead (c :: p) (.scalar (.int kind (natOf p)))
  | signed {c : UInt8} {kind : IntKind} {p : List UInt8}
      (hc : (c, kind, p.length) ∈ signedCodes) : IsHead (c :: p) (.scalar (.int kind (intOf p)))
  | list {c : UInt8} {l : List UInt8} (hc : (c, l.length) ∈ listCodes) :
      IsHead (c :: l) (.list (natOf l))
  | map {c : UInt8} {l : List UInt8} (hc : (c, l.length) ∈ mapCodes) :
      IsHead (c :: l) (.map (natOf l))

variable {c : UInt8} {kind : IntKind} {head : Head} {pre : List UInt8}

theorem IsHead.ne_nil (h : IsHead pre head) : pre ≠ [] := by
  cases h <;> exact List.cons_ne_nil _ _

/-! ### What the reader does at a code -/

theorem head?_bytes (hc : (c, size) ∈ bytesCodes) : head? (c :: bs) =
    (sized? size bs).map fun (p, rest) => (.scalar (.bytes p), rest) := by
  simp only [bytesCodes, List.mem_cons, Prod.mk.injEq, List.not_mem_nil, or_false] at hc
  rcases hc with ⟨rfl, rfl⟩ | ⟨rfl, rfl⟩ | ⟨rfl, rfl⟩ <;> rfl

theorem head?_text (hc : (c, size) ∈ textCodes) : head? (c :: bs) =
    (sized? size bs).map fun (p, rest) => (.scalar (.text p), rest) := by
  simp only [textCodes, List.mem_cons, Prod.mk.injEq, List.not_mem_nil, or_false] at hc
  rcases hc with ⟨rfl, rfl⟩ | ⟨rfl, rfl⟩ | ⟨rfl, rfl⟩ <;> rfl

theorem head?_unsigned (hc : (c, kind, size) ∈ unsignedCodes) : head? (c :: bs) =
    (take? size bs).map fun (p, rest) => (.scalar (.int kind (natOf p)), rest) := by
  simp only [unsignedCodes, List.mem_cons, Prod.mk.injEq, List.not_mem_nil, or_false] at hc
  rcases hc with ⟨rfl, rfl, rfl⟩ | ⟨rfl, rfl, rfl⟩ | ⟨rfl, rfl, rfl⟩ | ⟨rfl, rfl, rfl⟩ <;> rfl

theorem head?_signed (hc : (c, kind, size) ∈ signedCodes) : head? (c :: bs) =
    (take? size bs).map fun (p, rest) => (.scalar (.int kind (intOf p)), rest) := by
  simp only [signedCodes, List.mem_cons, Prod.mk.injEq, List.not_mem_nil, or_false] at hc
  rcases hc with ⟨rfl, rfl, rfl⟩ | ⟨rfl, rfl, rfl⟩ | ⟨rfl, rfl, rfl⟩ | ⟨rfl, rfl, rfl⟩ <;> rfl

theorem head?_list (hc : (c, size) ∈ listCodes) :
    head? (c :: bs) = (length? size bs).map fun (n, rest) => (.list n, rest) := by
  simp only [listCodes, List.mem_cons, Prod.mk.injEq, List.not_mem_nil, or_false] at hc
  rcases hc with ⟨rfl, rfl⟩ | ⟨rfl, rfl⟩ <;> rfl

theorem head?_map (hc : (c, size) ∈ mapCodes) :
    head? (c :: bs) = (length? size bs).map fun (n, rest) => (.map n, rest) := by
  simp only [mapCodes, List.mem_cons, Prod.mk.injEq, List.not_mem_nil, or_false] at hc
  rcases hc with ⟨rfl, rfl⟩ | ⟨rfl, rfl⟩ <;> rfl

/-- **A head is read whatever follows it.** -/
theorem IsHead.head?_append (h : IsHead pre head) (rest : List UInt8) :
    head? (pre ++ rest) = some (head, rest) := by
  cases h with
  | small hc => simp [head?, hc]
  | below hc =>
    simp only [head?, List.cons_append, List.nil_append]
    grind
  | shortMap hc =>
    simp only [head?, List.cons_append, List.nil_append]
    grind
  | shortList hc =>
    simp only [head?, List.cons_append, List.nil_append]
    grind
  | @shortText c t hc ht =>
    have htake : take? (c.toNat - 0xA0) (t ++ rest) = some (t, rest) :=
      take?_eq_some_iff.mpr ⟨rfl, ht⟩
    simp only [head?, List.cons_append, htake]
    grind
  | null => rfl
  | false => rfl
  | true => rfl
  | bytes hc hl =>
    have hsized := sized?_eq_some_iff.mpr ⟨_, congrArg (· ++ rest) rfl, rfl, hl⟩
    rw [List.cons_append, head?_bytes hc, hsized, Option.map_some]
  | text hc hl =>
    have hsized := sized?_eq_some_iff.mpr ⟨_, congrArg (· ++ rest) rfl, rfl, hl⟩
    rw [List.cons_append, head?_text hc, hsized, Option.map_some]
  | @float32 p hp =>
    have htake : take? 4 (p ++ rest) = some (p, rest) := take?_eq_some_iff.mpr ⟨rfl, hp⟩
    exact congrArg (Option.map _) htake
  | @float64 p hp =>
    have htake : take? 8 (p ++ rest) = some (p, rest) := take?_eq_some_iff.mpr ⟨rfl, hp⟩
    exact congrArg (Option.map _) htake
  | @unsigned c kind p hc =>
    have htake : take? p.length (p ++ rest) = some (p, rest) := take?_eq_some_iff.mpr ⟨rfl, rfl⟩
    rw [List.cons_append, head?_unsigned hc, htake, Option.map_some]
  | @signed c kind p hc =>
    have htake : take? p.length (p ++ rest) = some (p, rest) := take?_eq_some_iff.mpr ⟨rfl, rfl⟩
    rw [List.cons_append, head?_signed hc, htake, Option.map_some]
  | list hc =>
    rw [List.cons_append, head?_list hc, length?_eq_some_iff.mpr ⟨_, rfl, rfl, rfl⟩,
      Option.map_some]
  | map hc =>
    rw [List.cons_append, head?_map hc, length?_eq_some_iff.mpr ⟨_, rfl, rfl, rfl⟩,
      Option.map_some]

/-! ### What the reader takes for a head -/

/-- A code with a payload behind its length. -/
theorem exists_isHead_sized {f : List UInt8 → Head}
    (hf : ∀ l p : List UInt8, l.length = size → natOf l = p.length → IsHead (c :: (l ++ p)) (f p))
    (h : (sized? size bs).map (fun x => (f x.1, x.2)) = some (head, rest)) :
    ∃ pre, c :: bs = pre ++ rest ∧ IsHead pre head := by
  obtain ⟨⟨p, _⟩, hp, heq⟩ := Option.map_eq_some_iff.mp h
  obtain ⟨rfl, rfl⟩ := Prod.mk.inj heq
  obtain ⟨l, rfl, hlen, hl⟩ := sized?_eq_some_iff.mp hp
  exact ⟨c :: (l ++ p), rfl, hf l p hlen hl⟩

/-- A code with a payload of fixed size. -/
theorem exists_isHead_fixed {f : List UInt8 → Head}
    (hf : ∀ p : List UInt8, p.length = size → IsHead (c :: p) (f p))
    (h : (take? size bs).map (fun x => (f x.1, x.2)) = some (head, rest)) :
    ∃ pre, c :: bs = pre ++ rest ∧ IsHead pre head := by
  obtain ⟨⟨p, _⟩, hp, heq⟩ := Option.map_eq_some_iff.mp h
  obtain ⟨rfl, rfl⟩ := Prod.mk.inj heq
  obtain ⟨rfl, hlen⟩ := take?_eq_some_iff.mp hp
  exact ⟨c :: p, rfl, hf p hlen⟩

/-- A code with nothing but a length. -/
theorem exists_isHead_length {f : Nat → Head}
    (hf : ∀ l : List UInt8, l.length = size → IsHead (c :: l) (f (natOf l)))
    (h : (length? size bs).map (fun x => (f x.1, x.2)) = some (head, rest)) :
    ∃ pre, c :: bs = pre ++ rest ∧ IsHead pre head := by
  obtain ⟨⟨n, _⟩, hn, heq⟩ := Option.map_eq_some_iff.mp h
  obtain ⟨rfl, rfl⟩ := Prod.mk.inj heq
  obtain ⟨l, rfl, hlen, rfl⟩ := length?_eq_some_iff.mp hn
  exact ⟨c :: l, rfl, hf l hlen⟩

/-- A code that says all. -/
theorem exists_isHead_single {x : Head} (hx : IsHead [c] x) (h : some (x, bs) = some (head, rest)) :
    ∃ pre, c :: bs = pre ++ rest ∧ IsHead pre head := by
  obtain ⟨rfl, rfl⟩ := Prod.mk.inj (Option.some.inj h)
  exact ⟨[c], rfl, hx⟩

theorem code_eq (h : c.toNat = n) : c = UInt8.ofNat n := by
  rw [← h, UInt8.ofNat_toNat]

/-- **What is read as a head is one.** -/
theorem exists_isHead (h : head? bs = some (head, rest)) :
    ∃ pre, bs = pre ++ rest ∧ IsHead pre head := by
  cases bs with
  | nil => cases h
  | cons c bs =>
    unfold head? at h
    dsimp only at h
    split at h
    next hsmall => exact exists_isHead_single (.small hsmall) h
    split at h
    next hlow hmap => exact exists_isHead_single (.shortMap ⟨Nat.not_lt.mp hlow, hmap⟩) h
    split at h
    next hlow hlist => exact exists_isHead_single (.shortList ⟨Nat.not_lt.mp hlow, hlist⟩) h
    split at h
    next hlow htext =>
      exact exists_isHead_fixed (fun p hp => .shortText ⟨Nat.not_lt.mp hlow, htext⟩ hp) h
    split at h
    next hbelow => exact exists_isHead_single (.below hbelow) h
    -- what is left are the codes with a meaning of their own
    split at h
    case h_1 heq => exact exists_isHead_single (code_eq heq ▸ .null) h
    case h_2 heq => exact exists_isHead_single (code_eq heq ▸ .false) h
    case h_3 heq => exact exists_isHead_single (code_eq heq ▸ .true) h
    case h_4 heq | h_5 heq | h_6 heq =>
      exact exists_isHead_sized
        (fun l p hlen hl => .bytes (by rw [code_eq heq, hlen]; decide) hl) h
    case h_7 heq =>
      exact exists_isHead_fixed (f := fun p => .scalar (.float32 (natOf p)))
        (fun p hp => by rw [code_eq heq]; exact .float32 hp) h
    case h_8 heq =>
      exact exists_isHead_fixed (f := fun p => .scalar (.float64 (natOf p)))
        (fun p hp => by rw [code_eq heq]; exact .float64 hp) h
    case h_9 heq | h_10 heq | h_11 heq | h_12 heq =>
      exact exists_isHead_fixed (fun p hp => .unsigned (by rw [code_eq heq, hp]; decide)) h
    case h_13 heq | h_14 heq | h_15 heq | h_16 heq =>
      exact exists_isHead_fixed (fun p hp => .signed (by rw [code_eq heq, hp]; decide)) h
    case h_17 heq | h_18 heq | h_19 heq =>
      exact exists_isHead_sized
        (fun l p hlen hl => .text (by rw [code_eq heq, hlen]; decide) hl) h
    case h_20 heq | h_21 heq =>
      exact exists_isHead_length (fun l hl => .list (by rw [code_eq heq, hl]; decide)) h
    case h_22 heq | h_23 heq =>
      exact exists_isHead_length (fun l hl => .map (by rw [code_eq heq, hl]; decide)) h
    case h_24 => cases h

/-! ## Objects -/

mutual

/-- **The bytes of one object.** A scalar of its own keeps its kind; inside a
list or mapping it is widened. -/
inductive IsObject : (alone : Bool) → List UInt8 → Value → Prop
  | scalar {alone : Bool} {pre : List UInt8} {v : Value} (h : IsHead pre (.scalar v)) :
      IsObject alone pre (if alone then v else widen v)
  | list {alone : Bool} {pre bs : List UInt8} {vs : List Value} (h : IsHead pre (.list vs.length))
      (hs : IsItems bs vs) : IsObject alone (pre ++ bs) (.list vs)
  | map {alone : Bool} {pre bs : List UInt8} {es : List (Text × Value)}
      (h : IsHead pre (.map es.length)) (hs : IsEntries bs es) :
      IsObject alone (pre ++ bs) (.map (Text.lastEntries es))

/-- The bytes of objects one after the other. -/
inductive IsItems : List UInt8 → List Value → Prop
  | nil : IsItems [] []
  | cons {bs cs : List UInt8} {v : Value} {vs : List Value} (h : IsObject false bs v)
      (hs : IsItems cs vs) : IsItems (bs ++ cs) (v :: vs)

/-- The bytes of keys and objects by turns. -/
inductive IsEntries : List UInt8 → List (Text × Value) → Prop
  | nil : IsEntries [] []
  | cons {pre bs cs : List UInt8} {k v : Value} {t : Text} {es : List (Text × Value)}
      (hk : IsHead pre (.scalar k)) (ht : keyText? k = some t) (h : IsObject false bs v)
      (hs : IsEntries cs es) : IsEntries (pre ++ (bs ++ cs)) ((t, v) :: es)

end

variable {fuel : Nat} {alone : Bool} {v : Value} {vs : List Value} {es : List (Text × Value)}

/-! ### What is read is an object -/

/-- With so much fuel, what is read is an object, or so many of them. -/
structure TakesOwn (fuel : Nat) : Prop where
  inner {bs : List UInt8} {v : Value} {rest : List UInt8} (h : inner? fuel bs = some (v, rest)) :
    ∃ own, bs = own ++ rest ∧ IsObject false own v
  items {n : Nat} {bs : List UInt8} {vs : List Value} {rest : List UInt8}
    (h : items? fuel n bs = some (vs, rest)) :
    vs.length = n ∧ ∃ own, bs = own ++ rest ∧ IsItems own vs
  entries {n : Nat} {bs : List UInt8} {es : List (Text × Value)} {rest : List UInt8}
    (h : entries? fuel n bs = some (es, rest)) :
    es.length = n ∧ ∃ own, bs = own ++ rest ∧ IsEntries own es

/-- A list or mapping, alone or not. -/
theorem TakesOwn.nested (hown : TakesOwn fuel) (hnot : ∀ v rest, head? bs ≠ some (.scalar v, rest))
    (h : inner? (fuel + 1) bs = some (v, rest)) :
    ∃ own, bs = own ++ rest ∧ IsObject alone own v := by
  rw [inner?] at h
  split at h
  · cases h
  · rename_i heq
    exact absurd heq (hnot _ _)
  · rename_i heq
    obtain ⟨⟨vs, _⟩, hvs, hout⟩ := Option.map_eq_some_iff.mp h
    obtain ⟨rfl, rfl⟩ := Prod.mk.inj hout
    obtain ⟨pre, rfl, hpre⟩ := exists_isHead heq
    obtain ⟨rfl, own, rfl, hitems⟩ := hown.items hvs
    exact ⟨pre ++ own, (List.append_assoc _ _ _).symm, .list hpre hitems⟩
  · rename_i heq
    obtain ⟨⟨es, _⟩, hes, hout⟩ := Option.map_eq_some_iff.mp h
    obtain ⟨rfl, rfl⟩ := Prod.mk.inj hout
    obtain ⟨pre, rfl, hpre⟩ := exists_isHead heq
    obtain ⟨rfl, own, rfl, hentries⟩ := hown.entries hes
    exact ⟨pre ++ own, (List.append_assoc _ _ _).symm, .map hpre hentries⟩

theorem TakesOwn.inner_succ (hown : TakesOwn fuel) (h : inner? (fuel + 1) bs = some (v, rest)) :
    ∃ own, bs = own ++ rest ∧ IsObject false own v := by
  by_cases hscalar : ∃ v rest, head? bs = some (.scalar v, rest)
  · obtain ⟨u, rest', hhead⟩ := hscalar
    obtain ⟨pre, rfl, hpre⟩ := exists_isHead hhead
    rw [inner?, hhead] at h
    obtain ⟨rfl, rfl⟩ := Prod.mk.inj (Option.some.inj h)
    exact ⟨pre, rfl, .scalar hpre⟩
  · exact hown.nested (fun v rest hv => hscalar ⟨v, rest, hv⟩) h

theorem items_zero (h : items? fuel 0 bs = some (vs, rest)) :
    vs.length = 0 ∧ ∃ own, bs = own ++ rest ∧ IsItems own vs := by
  have hnil : items? fuel 0 bs = some ([], bs) := by cases fuel <;> rfl
  obtain ⟨rfl, rfl⟩ := Prod.mk.inj (Option.some.inj (hnil.symm.trans h))
  exact ⟨rfl, [], rfl, .nil⟩

theorem TakesOwn.items_succ (hown : TakesOwn fuel) (h : items? (fuel + 1) n bs = some (vs, rest)) :
    vs.length = n ∧ ∃ own, bs = own ++ rest ∧ IsItems own vs := by
  cases n with
  | zero => exact items_zero h
  | succ n =>
    rw [items?] at h
    split at h
    · cases h
    · rename_i u rest' hu
      obtain ⟨⟨us, _⟩, hus, hout⟩ := Option.map_eq_some_iff.mp h
      obtain ⟨rfl, rfl⟩ := Prod.mk.inj hout
      obtain ⟨own, rfl, hobject⟩ := hown.inner hu
      obtain ⟨rfl, more, rfl, hitems⟩ := hown.items hus
      exact ⟨rfl, own ++ more, (List.append_assoc _ _ _).symm, .cons hobject hitems⟩

theorem entries_zero (h : entries? fuel 0 bs = some (es, rest)) :
    es.length = 0 ∧ ∃ own, bs = own ++ rest ∧ IsEntries own es := by
  have hnil : entries? fuel 0 bs = some ([], bs) := by cases fuel <;> rfl
  obtain ⟨rfl, rfl⟩ := Prod.mk.inj (Option.some.inj (hnil.symm.trans h))
  exact ⟨rfl, [], rfl, .nil⟩

theorem TakesOwn.entries_succ (hown : TakesOwn fuel)
    (h : entries? (fuel + 1) n bs = some (es, rest)) :
    es.length = n ∧ ∃ own, bs = own ++ rest ∧ IsEntries own es := by
  cases n with
  | zero => exact entries_zero h
  | succ n =>
    rw [entries?] at h
    split at h
    · rename_i k rest' hk
      split at h
      · rename_i t u rest'' ht hu
        obtain ⟨⟨us, _⟩, hus, hout⟩ := Option.map_eq_some_iff.mp h
        obtain ⟨rfl, rfl⟩ := Prod.mk.inj hout
        obtain ⟨pre, rfl, hpre⟩ := exists_isHead hk
        obtain ⟨own, rfl, hobject⟩ := hown.inner hu
        obtain ⟨rfl, more, rfl, hentries⟩ := hown.entries hus
        exact ⟨rfl, pre ++ (own ++ more), by simp only [List.append_assoc],
          .cons hpre ht hobject hentries⟩
      · cases h
    · cases h

theorem takesOwn (fuel : Nat) : TakesOwn fuel := by
  induction fuel with
  | zero =>
    -- without fuel nothing is read but no items at all
    refine ⟨fun h => (nomatch h), fun {n _ _ _} h => ?_, fun {n _ _ _} h => ?_⟩
    · cases n with
      | zero => exact items_zero h
      | succ n => cases h
    · cases n with
      | zero => exact entries_zero h
      | succ n => cases h
  | succ fuel ih => exact ⟨ih.inner_succ, ih.items_succ, ih.entries_succ⟩

/-! ### An object is read whatever follows it -/

theorem IsObject.length_pos (h : IsObject alone bs v) : 0 < bs.length := by
  cases h with
  | scalar h => exact List.length_pos_iff.mpr h.ne_nil
  | list h hs | map h hs =>
    rw [List.length_append]
    exact Nat.add_pos_left (List.length_pos_iff.mpr h.ne_nil) _

/-- With so much fuel, an object is read whatever follows it, and so many of them are. Two steps for
each byte are enough. -/
structure ReadsOwn (fuel : Nat) : Prop where
  inner {own : List UInt8} {v : Value} (h : IsObject false own v) (hfuel : 2 * own.length ≤ fuel)
    (rest : List UInt8) : inner? fuel (own ++ rest) = some (v, rest)
  items {own : List UInt8} {vs : List Value} (h : IsItems own vs)
    (hfuel : 2 * own.length + 1 ≤ fuel) (rest : List UInt8) :
    items? fuel vs.length (own ++ rest) = some (vs, rest)
  entries {own : List UInt8} {es : List (Text × Value)} (h : IsEntries own es)
    (hfuel : 2 * own.length + 1 ≤ fuel) (rest : List UInt8) :
    entries? fuel es.length (own ++ rest) = some (es, rest)

theorem ReadsOwn.inner_succ (hreads : ReadsOwn fuel) (h : IsObject false bs v)
    (hfuel : 2 * bs.length ≤ fuel + 1) (rest : List UInt8) :
    inner? (fuel + 1) (bs ++ rest) = some (v, rest) := by
  cases h with
  | scalar h =>
    rw [inner?, h.head?_append]
    rfl
  | list h hs =>
    have hpos := List.length_pos_iff.mpr h.ne_nil
    rw [List.length_append] at hfuel
    rw [List.append_assoc, inner?, h.head?_append]
    dsimp only
    rw [hreads.items hs (by omega)]
    rfl
  | map h hs =>
    have hpos := List.length_pos_iff.mpr h.ne_nil
    rw [List.length_append] at hfuel
    rw [List.append_assoc, inner?, h.head?_append]
    dsimp only
    rw [hreads.entries hs (by omega)]
    rfl

theorem ReadsOwn.items_succ (hreads : ReadsOwn fuel) (h : IsItems bs vs)
    (hfuel : 2 * bs.length ≤ fuel) (rest : List UInt8) :
    items? (fuel + 1) vs.length (bs ++ rest) = some (vs, rest) := by
  cases h with
  | nil => rfl
  | cons h hs =>
    have hpos := h.length_pos
    rw [List.length_append] at hfuel
    rw [List.append_assoc, List.length_cons, items?, hreads.inner h (by omega)]
    dsimp only
    rw [hreads.items hs (by omega)]
    rfl

theorem ReadsOwn.entries_succ (hreads : ReadsOwn fuel) (h : IsEntries bs es)
    (hfuel : 2 * bs.length ≤ fuel) (rest : List UInt8) :
    entries? (fuel + 1) es.length (bs ++ rest) = some (es, rest) := by
  cases h with
  | nil => rfl
  | cons hk ht h hs =>
    have hpos := List.length_pos_iff.mpr hk.ne_nil
    rw [List.length_append, List.length_append] at hfuel
    rw [List.append_assoc, List.append_assoc, List.length_cons, entries?, hk.head?_append]
    dsimp only
    rw [ht, hreads.inner h (by omega)]
    dsimp only
    rw [hreads.entries hs (by omega)]
    rfl

theorem readsOwn (fuel : Nat) : ReadsOwn fuel := by
  induction fuel with
  | zero =>
    -- an object has at least one byte, so fuel that is enough for it is not zero
    refine ⟨fun h hfuel => ?_, fun h hfuel => ?_, fun h hfuel => ?_⟩
    · have hpos := h.length_pos
      omega
    · omega
    · omega
  | succ fuel ih =>
    exact ⟨ih.inner_succ, fun h hfuel => ih.items_succ h (Nat.le_of_succ_le_succ hfuel),
      fun h hfuel => ih.entries_succ h (Nat.le_of_succ_le_succ hfuel)⟩

/-- **The reader takes the bytes of one object** from the front of what it is
given, and leaves what follows. -/
theorem start?_eq_some_iff :
    start? bs = some (v, rest) ↔ ∃ own, bs = own ++ rest ∧ IsObject true own v := by
  constructor
  · intro h
    rw [start?] at h
    split at h
    · rename_i u rest' hhead
      obtain ⟨rfl, rfl⟩ := Prod.mk.inj (Option.some.inj h)
      obtain ⟨pre, rfl, hpre⟩ := exists_isHead hhead
      exact ⟨pre, rfl, .scalar hpre⟩
    · rename_i hnot
      exact (takesOwn _).nested hnot h
  · rintro ⟨own, rfl, h⟩
    have hread {u : Value} (hu : IsObject false own u) :
        inner? (2 * (own ++ rest).length + 2) (own ++ rest) = some (u, rest) :=
      (readsOwn _).inner hu (by rw [List.length_append]; omega) rest
    cases h with
    | scalar h =>
      rw [start?, h.head?_append]
      rfl
    | list h hs =>
      rw [start?, List.append_assoc, h.head?_append]
      dsimp only
      rw [← List.append_assoc]
      exact hread (.list h hs)
    | map h hs =>
      rw [start?, List.append_assoc, h.head?_append]
      dsimp only
      rw [← List.append_assoc]
      exact hread (.map h hs)

theorem read?_eq_some_iff :
    read? bs = some v ↔ ∃ own rest, bs = own ++ rest ∧ IsObject true own v := by
  rw [read?, Option.map_eq_some_iff]
  constructor
  · rintro ⟨⟨u, rest⟩, h, rfl⟩
    obtain ⟨own, hbs, hown⟩ := start?_eq_some_iff.mp h
    exact ⟨own, rest, hbs, hown⟩
  · rintro ⟨own, rest, hbs, hown⟩
    exact ⟨(v, rest), start?_eq_some_iff.mpr ⟨own, hbs, hown⟩, rfl⟩

end MessagePack

end WireModel
