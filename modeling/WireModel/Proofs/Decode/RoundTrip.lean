import WireModel.Proofs.Decode.Depth
import WireModel.Proofs.Decode.Typed
import WireModel.Sample

/-!
# Round trips — what is written is read back

A value of a declaration is written by `Datum.encode` and read by
`ModuleGraph.deserialize`. Where nothing that is held behind an
indirection is written as null, what is read back is the same datum
(`ModuleGraph.exists_read_of_fits`). Two results rest on this: decoding
is stable under encoding again, because what was read holds nothing that
is written as null; and every value comes back from graphs in which no
such thing exists.
-/

namespace WireModel

/-- **The same datum**, with decimals compared as numbers. -/
inductive Datum.Same : Datum → Datum → Prop
  | refl (x : Datum) : Same x x
  | decimal {a b : Decimal} (h : a.SameNumber b) : Same (.decimal a) (.decimal b)
  | list {xs ys : List Datum} (h : List.Forall₂ Same xs ys) : Same (.list xs) (.list ys)
  | map {es fs : List (Text × Datum)} (hk : es.map (·.1) = fs.map (·.1))
      (h : List.Forall₂ Same (es.map (·.2)) (fs.map (·.2))) : Same (.map es) (.map fs)
  | present {x y : Datum} (h : Same x y) : Same (.present x) (.present y)
  | record {id : DeclId} {es fs : List (Text × Datum)} (hk : es.map (·.1) = fs.map (·.1))
      (h : List.Forall₂ Same (es.map (·.2)) (fs.map (·.2))) : Same (.record id es) (.record id fs)
  | variant {id : DeclId} {tag : Text} {x y : Datum} (h : Same x y) :
      Same (.variant id tag x) (.variant id tag y)
  | wrapped {id : DeclId} {x y : Datum} (h : Same x y) : Same (.wrapped id x) (.wrapped id y)

/-- Reading a value of a slot. -/
def Slot.read (g : ModuleGraph) : Slot → Value → Reading Datum
  | .type t, v => (Reader.ofType g.workspace t).run g.deserialize v
  | .member m id name t, v => (Reader.ofMember g.workspace m id name t).run g.deserialize v
  | .decl id, v => g.deserialize id v

/-! ## Scalars -/

namespace Value

theorem toInt_int {width : Nat} {n : Int} (hn : fitsSigned width n = true) :
    (Value.int (.signed width) n).toInt width = .ok n := by
  have h64 : (Value.int (.signed width) n).toInt64 = .ok n := by
    unfold IntKind.signed
    split <;> rfl
  simp [toInt, h64, bind, Except.bind, hn]

theorem toByteList_map (bs : List UInt8) (pos : Nat) :
    toByteList pos (bs.map fun b => Value.int .int b.toNat) = .ok bs := by
  induction bs generalizing pos with
  | nil => rfl
  | cons b bs ih =>
    have hb : (Value.int .int b.toNat).toByte? = some b := by
      have hlt := b.toNat_lt
      simp [toByte?, toInt64]
      omega
    rw [List.map_cons, toByteList, hb]
    simp [bind, Except.bind, ih]

theorem toBigint_ofInt (n : Int) : (Value.text (Text.ofInt n)).toBigint = .ok n := by
  rw [toBigint, Text.toInteger?_ofInt]

end Value

/-! ## Sequences and mappings -/

section Sequences

variable {w : Workspace} {read : Value → Reading Datum}

theorem readList_encodeList {xs : List Datum}
    (h : ∀ x ∈ xs, ∃ y, read (x.encode w) = some (.ok y) ∧ x.Same y) (pos : Nat) :
    ∃ ys, Reader.readList read pos (Datum.encodeList w xs) = some (.ok ys) ∧
      List.Forall₂ Datum.Same xs ys := by
  induction xs generalizing pos with
  | nil => exact ⟨[], rfl, .nil⟩
  | cons x xs ih =>
    obtain ⟨y, hy, hsame⟩ := h x (by simp)
    obtain ⟨ys, hys, hall⟩ := ih (fun z hz => h z (by simp [hz])) (pos + 1)
    refine ⟨y :: ys, ?_, .cons hsame hall⟩
    exact Reading.andThen_eq_ok_iff.mpr ⟨y, Reading.mapError_eq_ok_iff.mpr hy,
      Reading.map_eq_ok_iff.mpr ⟨ys, hys, rfl⟩⟩

theorem readEntries_encodeEntries {es : List (Text × Datum)}
    (h : ∀ e ∈ es, ∃ y, read (e.2.encode w) = some (.ok y) ∧ e.2.Same y) :
    ∃ fs, Reader.readEntries read (Datum.encodeEntries w es) = some (.ok fs) ∧
      es.map (·.1) = fs.map (·.1) ∧ List.Forall₂ Datum.Same (es.map (·.2)) (fs.map (·.2)) := by
  induction es with
  | nil => exact ⟨[], rfl, rfl, .nil⟩
  | cons e es ih =>
    obtain ⟨k, x⟩ := e
    obtain ⟨y, hy, hsame⟩ := h (k, x) (by simp)
    obtain ⟨fs, hfs, hk, hall⟩ := ih fun z hz => h z (by simp [hz])
    refine ⟨(k, y) :: fs, ?_, by simp [hk], .cons hsame hall⟩
    exact Reading.andThen_eq_ok_iff.mpr ⟨y, Reading.mapError_eq_ok_iff.mpr hy,
      Reading.map_eq_ok_iff.mpr ⟨fs, hfs, rfl⟩⟩

theorem encodeEntries_eq_map (es : List (Text × Datum)) :
    Datum.encodeEntries w es = es.map fun e => (e.1, e.2.encode w) := by
  induction es with
  | nil => rfl
  | cons e es ih =>
    obtain ⟨k, x⟩ := e
    rw [Datum.encodeEntries, ih]
    rfl

/-- **The entries of a record are found under their keys**, in whatever
order they are written, if no key stands twice. -/
theorem lookup?_encodeEntries {es : List (Text × Datum)} (hnd : (es.map (·.1)).Nodup)
    {e : Text × Datum} (he : e ∈ es) :
    Text.lookup? e.1 (Text.sortByKey (Datum.encodeEntries w es)) = some (e.2.encode w) := by
  have hkeys : (Datum.encodeEntries w es).map (·.1) = es.map (·.1) := by
    rw [encodeEntries_eq_map, List.map_map]
    rfl
  have hnd' : ((Datum.encodeEntries w es).map (·.1)).Nodup := by rwa [hkeys]
  rw [Text.lookup?_sortByKey hnd']
  refine Text.lookup?_eq_some_of_mem hnd' ?_
  rw [encodeEntries_eq_map]
  exact List.mem_map_of_mem he

end Sequences

/-- And so are the two entries of a variant. -/
theorem lookup?_pair {a b : Text} (hne : a ≠ b) (u v : Value) :
    Text.lookup? a (Text.sortByKey [(a, u), (b, v)]) = some u ∧
      Text.lookup? b (Text.sortByKey [(a, u), (b, v)]) = some v := by
  have hnd : ([(a, u), (b, v)].map (·.1)).Nodup := by simpa using hne
  rw [Text.lookup?_sortByKey hnd, Text.lookup?_sortByKey hnd, Text.lookup?_cons_of_ne hne]
  exact ⟨Text.lookup?_cons_self, Text.lookup?_cons_self⟩

/-! ## Declarations -/

namespace ModuleGraph

variable {g : ModuleGraph}

/-- The fields of a struct are read back from its entries, in whatever
order these are. -/
theorem readFields_encode {m : LinkedModule} {id : DeclId} {es : List (Text × Value)}
    {fs : List Field} {xs : List (Text × Datum)} (hnames : xs.map (·.1) = fs.map (·.name))
    (hes : ∀ x ∈ xs, Text.lookup? x.1 es = some (x.2.encode g.workspace))
    (hread : ∀ p ∈ fs.zip xs, ∃ y,
      (Slot.member m id p.1.name p.1.effectiveType).read g (p.2.2.encode g.workspace) =
        some (.ok y) ∧ p.2.2.Same y) :
    ∃ ys, g.readFields g.deserialize m id es fs = some (.ok ys) ∧
      xs.map (·.1) = ys.map (·.1) ∧ List.Forall₂ Datum.Same (xs.map (·.2)) (ys.map (·.2)) := by
  induction fs generalizing xs with
  | nil =>
    obtain rfl : xs = [] := by simpa using hnames
    exact ⟨[], rfl, rfl, .nil⟩
  | cons field fs ih =>
    obtain ⟨⟨k, x⟩, xs, rfl⟩ : ∃ e xs', xs = e :: xs' := by
      cases xs with
      | nil => simp at hnames
      | cons e xs' => exact ⟨e, xs', rfl⟩
    rw [List.map_cons, List.map_cons, List.cons.injEq] at hnames
    obtain ⟨rfl, hnames⟩ := hnames
    obtain ⟨y, hy, hsame⟩ := hread (field, (field.name, x)) (by simp)
    have hl := hes (field.name, x) (by simp)
    obtain ⟨ys, hys, hk, hall⟩ := ih hnames (fun e he => hes e (by simp [he]))
      fun p hp => hread p (by simp [hp])
    refine ⟨(field.name, y) :: ys, ?_, by simp [hk], .cons hsame hall⟩
    refine Reading.andThen_eq_ok_iff.mpr ⟨y, ?_, Reading.map_eq_ok_iff.mpr ⟨ys, hys, rfl⟩⟩
    split
    · exact Reader.readRequired_of_lookup? hl hy
    · exact Reader.readOptional_of_lookup? hl hy

/-- A deserializer reads what its body reads. -/
theorem deserialize_of_readBody {id : DeclId} {m : LinkedModule} {d : Decl}
    (hd : g.Declares id m d) {v : Value} {x : Datum}
    (h : g.readBody g.deserialize m id d v = some (.ok x)) : g.deserialize id v = some (.ok x) := by
  rw [deserialize_eq hd.1 hd.2]
  exact Reading.mapError_eq_ok_iff.mpr h

/-- A variant is found by its name. -/
theorem find?_variants (hl : g.Linked) {id : DeclId} {m : LinkedModule} {d : Decl}
    (hd : g.Declares id m d) {v : Variant} (hv : v ∈ d.variants) :
    d.variants.find? (·.name == v.name) = some v := by
  have hnd : ((d.variants.map fun v => (v.name, v)).map (·.1)).Nodup := by
    rw [List.map_map]
    exact hl.variants_nodup hd
  have hfound := Text.lookup?_eq_some_of_mem hnd (List.mem_map_of_mem hv)
  rw [Text.lookup?, List.find?_map, Option.map_map] at hfound
  obtain ⟨u, hu, heq⟩ := Option.map_eq_some_iff.mp hfound
  obtain rfl : u = v := heq
  exact hu

/-- **A union is read back from its entries**: the discriminator leads to
the variant, which reads the payload. -/
theorem readBody_union {id : DeclId} {m : LinkedModule} {d : Decl} {v : Variant}
    (hv : v ∈ d.variants) {es : List (Text × Value)}
    (htag : Text.lookup? d.tagKey es = some (.text v.name)) {x : Datum}
    (h : g.readVariant g.deserialize id d es v.name = some (.ok x)) :
    g.readBody g.deserialize m id d (.map es) = some (.ok x) := by
  rw [Decl.variants] at hv
  cases hb : d.body with
  | union vs tag payload =>
    rw [readBody, hb]
    have hread : Reader.readRequired (Reader.text.run g.deserialize) es d.tagKey =
        some (.ok (.text v.name)) := Reader.readRequired_of_lookup? htag rfl
    exact Reading.andThen_eq_ok_iff.mpr ⟨es, rfl, Reading.andThen_eq_ok_iff.mpr ⟨_, hread, h⟩⟩
  | _ => simp [hb] at hv

/-- A value of a type with room for null is written as null only if it is
null. -/
theorem shown_of_isNilable {held : Datum → Prop} {t : TypeExpr} {x : Datum}
    (hn : Reader.isNilable g.workspace t = true) (hx : g.Fits held (.type t) x)
    (hne : x ≠ .json .null) : x.Shown g.workspace := by
  cases hx with
  | bigint n => exact fun hnull => nomatch hnull
  | json v =>
    rintro hnull
    obtain rfl : v = .null := hnull
    exact hne rfl
  | ref ht hx =>
    rename_i width r elem id
    -- only a union has room for null among the declarations
    have hshape : (Rule.ofTarget g.workspace (some id)).shape = .tagged := by
      simpa [Reader.isNilable, Rule.ofType, ht] using hn
    cases hx with
    | record hd hb => simp [Rule.ofTarget, hd.2, hb, Rule.shape] at hshape
    | void hd hv hvoid => exact fun hnull => nomatch hnull
    | variant hd hv hvoid hx => exact fun hnull => nomatch hnull
    | wrapped hd hb hx => simp [Rule.ofTarget, hd.2, hb, Rule.shape] at hshape
  | _ => simp [Reader.isNilable] at hn

/-- **What is written is read back**, where nothing held behind an
indirection is written as null. The induction is on how the datum came
to fit; each case runs the reader of its slot. -/
theorem exists_read_of_fits (hl : g.Linked) {s : Slot} {x : Datum}
    (h : g.Fits (·.Shown g.workspace) s x) :
    ∃ y, s.read g (x.encode g.workspace) = some (.ok y) ∧ x.Same y := by
  induction h with
  | bool b => exact ⟨_, rfl, .refl _⟩
  | int hw hn =>
    refine ⟨_, ?_, .refl _⟩
    simp only [Slot.read, Reader.ofType, Reader.run, intWidth_eq hw, Datum.encode,
      Value.toInt_int hn]
    rfl
  | float bits => exact ⟨_, rfl, .refl _⟩
  | text t => exact ⟨_, rfl, .refl _⟩
  | bigint n =>
    refine ⟨_, ?_, .refl _⟩
    simp only [Slot.read, Reader.ofType, Reader.run, Datum.encode, Value.toBigint_ofInt]
    rfl
  | decimal hd =>
    obtain ⟨e, he, hsame⟩ := Decimal.ofText?_toText hd
    refine ⟨.decimal e, ?_, .decimal hsame⟩
    simp only [Slot.read, Reader.ofType, Reader.run, Datum.encode, Value.toDecimal, he]
    rfl
  | bytes bs =>
    refine ⟨_, ?_, .refl _⟩
    simp only [Slot.read, Reader.ofType, Reader.run, Datum.encode, Value.toBytes,
      Value.toByteList_map]
    rfl
  | json v => exact ⟨_, rfl, .refl _⟩
  | list _ ih =>
    obtain ⟨ys, hys, hall⟩ := readList_encodeList ih 0
    exact ⟨.list ys, Reading.map_eq_ok_iff.mpr ⟨ys, hys, rfl⟩, .list hall⟩
  | map _ ih =>
    obtain ⟨fs, hfs, hk, hall⟩ := readEntries_encodeEntries ih
    exact ⟨.map fs, Reading.map_eq_ok_iff.mpr ⟨fs, hfs, rfl⟩, .map hk hall⟩
  | absent =>
    refine ⟨_, ?_, .refl _⟩
    simp only [Slot.read, Reader.ofType, Datum.encode]
    split <;> rfl
  | nullable hn hx hne ih =>
    obtain ⟨y, hy, hsame⟩ := ih
    refine ⟨.present y, ?_, .present hsame⟩
    simp only [Slot.read, Reader.ofType, hn, if_true, Datum.encode]
    rw [Reader.run_nullable_of_ne (shown_of_isNilable hn hx hne)]
    exact Reading.map_eq_ok_iff.mpr ⟨y, hy, rfl⟩
  | pointer hn hx hheld ih =>
    obtain ⟨y, hy, hsame⟩ := ih
    refine ⟨.present y, ?_, .present hsame⟩
    simp only [Slot.read, Reader.ofType, hn, Bool.false_eq_true, if_false, Datum.encode]
    rw [Reader.run_optional_of_ne hheld]
    exact Reading.map_eq_ok_iff.mpr ⟨y, hy, rfl⟩
  | ref ht hx ih =>
    obtain ⟨y, hy, hsame⟩ := ih
    refine ⟨y, ?_, hsame⟩
    simpa [Slot.read, Reader.ofType, Reader.run, ht] using hy
  | plain hb hx ih =>
    obtain ⟨y, hy, hsame⟩ := ih
    refine ⟨y, ?_, hsame⟩
    simpa [Slot.read, Reader.ofMember, hb] using hy
  | boxed hb hx hheld ih =>
    obtain ⟨y, hy, hsame⟩ := ih
    refine ⟨.present y, ?_, .present hsame⟩
    simp only [Slot.read, Reader.ofMember, hb, if_true, Datum.encode]
    rw [Reader.run_boxed_of_ne hheld]
    exact Reading.map_eq_ok_iff.mpr ⟨y, hy, rfl⟩
  | record hd hb hnames hx ih =>
    rename_i id m d fs xs
    have hnd : (xs.map (·.1)).Nodup := hnames ▸ hl.fields_nodup hd
    obtain ⟨ys, hys, hk, hall⟩ := readFields_encode hnames (fun x => lookup?_encodeEntries hnd) ih
    refine ⟨.record id ys, deserialize_of_readBody hd ?_, .record hk hall⟩
    rw [readBody, hb]
    exact Reading.map_eq_ok_iff.mpr ⟨ys, hys, rfl⟩
  | void hd hv hvoid =>
    rename_i id m d v
    refine ⟨_, deserialize_of_readBody hd (readBody_union hv ?_ ?_), .refl _⟩
    · rw [Datum.unionKeys, hd.2]
      exact Text.lookup?_cons_self
    · rw [readVariant, find?_variants hl hd hv]
      simp [hvoid]
  | variant hd hv hvoid hx ih =>
    rename_i id m d v x
    obtain ⟨y, hy, hsame⟩ := ih
    have hkeys : Datum.unionKeys g.workspace id = (d.tagKey, d.payloadKey) := by
      rw [Datum.unionKeys, hd.2]
    have hne : d.tagKey ≠ d.payloadKey := hl.keys_ne hd (Decl.kind_of_mem_variants hv)
    obtain ⟨htag, hpayload⟩ := lookup?_pair hne (.text v.name) (x.encode g.workspace)
    refine ⟨.variant id v.name y, deserialize_of_readBody hd ?_, .variant hsame⟩
    rw [Datum.encode, hkeys]
    refine readBody_union hv htag ?_
    rw [readVariant, find?_variants hl hd hv]
    simp only [hvoid, Bool.false_eq_true, if_false]
    refine Reading.map_eq_ok_iff.mpr ⟨y, ?_, rfl⟩
    split
    · exact Reader.readOptional_of_lookup? hpayload hy
    · exact Reader.readRequired_of_lookup? hpayload hy
  | wrapped hd hb hx ih =>
    obtain ⟨y, hy, hsame⟩ := ih
    refine ⟨.wrapped _ y, deserialize_of_readBody hd ?_, .wrapped hsame⟩
    rw [readBody, hb]
    exact Reading.map_eq_ok_iff.mpr ⟨y, hy, rfl⟩

end ModuleGraph

/-! ## Stability -/

/-- **Decoding is stable under encoding again.** In a graph that linking
gives, whatever a deserializer reads is read again, as the same datum,
from the value it is written as. -/
theorem deserialize_encode_stable {w : Workspace} {ids : List Nat} {g : ModuleGraph}
    (hbases : BasesLinked w) (hg : (resolve w ids).2 = .ok g) {id : DeclId} {v : Value}
    {x : Datum} (h : g.deserialize id v = some (.ok x)) :
    ∃ y, g.deserialize id (x.encode g.workspace) = some (.ok y) ∧ x.Same y := by
  have hl := linked_of_resolve hbases hg
  exact g.exists_read_of_fits hl (g.readFits_of_readDecl hl h).1

/-! ## A tree -/

namespace Sample

open Linking

/-- The sample as it is linked. -/
abbrev sampleGraph : ModuleGraph := graph modules [0, 1]

/-- Trees of the sample, with their reference to themselves bound. -/
def nodeDecl : Decl where
  name := "Node"
  doc := "Node is a tree of integers."
  body := .struct
    [required "value" (.int 64),
      free "children" (.list (.node .ref 0 (some ⟨[], "Node", some ⟨1, 4⟩⟩) .missing))]

/-- A tree of two nodes. -/
def tree : Datum :=
  .record ⟨1, 4⟩ [("value", .int 64 7),
    ("children", .present (.list [.record ⟨1, 4⟩ [("value", .int 64 1), ("children", .absent)]]))]

theorem basesLinked_modules : BasesLinked modules := by
  unfold BasesLinked
  decide

theorem declares_node : ∃ m, sampleGraph.Declares ⟨1, 4⟩ m nodeDecl :=
  exists_declares_of_bound (passes_of_resolve resolve_modules).1 ⟨by simp, rfl⟩ rfl

/-- A node of a tree is a value of its declaration. -/
theorem fits_node {held : Datum → Prop} {n : Int} (hn : fitsSigned 64 n = true) {x : Datum}
    (hx : sampleGraph.Fits held
      (.type (.optional (.list (.node .ref 0 (some ⟨[], "Node", some ⟨1, 4⟩⟩) .missing)))) x) :
    sampleGraph.Fits held (.decl ⟨1, 4⟩)
      (.record ⟨1, 4⟩ [("value", .int 64 n), ("children", x)]) := by
  obtain ⟨m, hd⟩ := declares_node
  refine .record hd rfl rfl fun p hp => ?_
  rcases List.mem_cons.mp hp with rfl | hp
  · exact .plain rfl (.int rfl hn)
  · rcases List.mem_cons.mp hp with rfl | hp
    · exact .plain rfl hx
    · cases hp

/-- So the tree is one. -/
theorem fits_tree {held : Datum → Prop} (h : ∀ xs, held (.list xs)) :
    sampleGraph.Fits held (.decl ⟨1, 4⟩) tree := by
  refine fits_node (by decide) (.pointer rfl (.list fun x hx => ?_) (h _))
  obtain rfl := List.mem_singleton.mp hx
  exact .ref rfl (fits_node (by decide) .absent)

/-- The tree is read from what it is written as, and read again from
that. -/
theorem tree_stable : BasesLinked modules ∧ (resolve modules [0, 1]).2 = .ok sampleGraph ∧
    ∃ x, sampleGraph.deserialize ⟨1, 4⟩ (tree.encode sampleGraph.workspace) = some (.ok x) ∧
      ∃ y, sampleGraph.deserialize ⟨1, 4⟩ (x.encode sampleGraph.workspace) = some (.ok y) ∧
        x.Same y := by
  have hl := linked_of_resolve basesLinked_modules resolve_modules
  obtain ⟨x, hx, -⟩ := sampleGraph.exists_read_of_fits hl (fits_tree fun _ hnull => nomatch hnull)
  exact ⟨basesLinked_modules, resolve_modules, x, hx,
    deserialize_encode_stable basesLinked_modules resolve_modules hx⟩

end Sample

end WireModel
