import WireModel.Proofs.Decode.Depth
import WireModel.Proofs.Link.Linked
import WireModel.Proofs.Value.Alike

/-!
# Representations — decoding does not depend on them

A deserializer reads values that are alike with results that are alike, or
fails on both with one kind of failure at one place, or answers neither
(`ModuleGraph.deserialize_alike`). Data that are alike differ in nothing
but the values that are passed through as they are.

Floating point numbers are read from an integer by rounding it, and from a
text by reading it, so the declaration must lead to none
(`ModuleGraph.FloatFree`). The proof goes by the types: a reader of a type
without floating point numbers relates what it reads, if the deserializers
that it runs do, and the depth to which they are run carries the rest.
-/

namespace WireModel

open Relation

/-! ## Data -/

namespace Datum

mutual

/-- **Data that are alike**: they are the same but for the values that are
passed through, which are alike. -/
inductive Alike : Datum → Datum → Prop
  | same (x : Datum) : Alike x x
  | json {v v' : Value} (h : v.Alike v') : Alike (.json v) (.json v')
  | list {xs xs' : List Datum} (h : AlikeList xs xs') : Alike (.list xs) (.list xs')
  | map {es es' : List (Text × Datum)} (h : AlikeEntries es es') : Alike (.map es) (.map es')
  | present {x x' : Datum} (h : Alike x x') : Alike (.present x) (.present x')
  | record (id : DeclId) {es es' : List (Text × Datum)} (h : AlikeEntries es es') :
    Alike (.record id es) (.record id es')
  | variant (id : DeclId) (tag : Text) {x x' : Datum} (h : Alike x x') :
    Alike (.variant id tag x) (.variant id tag x')
  | wrapped (id : DeclId) {x x' : Datum} (h : Alike x x') : Alike (.wrapped id x) (.wrapped id x')

/-- Sequences of data that are alike. -/
inductive AlikeList : List Datum → List Datum → Prop
  | nil : AlikeList [] []
  | cons {x x' : Datum} {xs xs' : List Datum} (h : Alike x x') (hs : AlikeList xs xs') :
    AlikeList (x :: xs) (x' :: xs')

/-- Entries with the same keys in the same order, and data that are alike. -/
inductive AlikeEntries : List (Text × Datum) → List (Text × Datum) → Prop
  | nil : AlikeEntries [] []
  | cons (key : Text) {x x' : Datum} {es es' : List (Text × Datum)} (h : Alike x x')
    (hs : AlikeEntries es es') : AlikeEntries ((key, x) :: es) ((key, x') :: es')

end

end Datum

/-! ## Readers -/

/-- **A reader reads alike** what is alike. -/
def ReadsAlike (read : Value → Reading Datum) : Prop :=
  ∀ ⦃u u'⦄, u.Alike u' → (read u).Alike Datum.Alike (read u')

namespace Reader

open Reading

variable {read : Value → Reading Datum} {R : Datum → Datum → Prop}

theorem readList_alike (hread : ReadsAlike read) {vs vs' : List Value}
    (h : Value.AlikeList vs vs') (pos : Nat) :
    (readList read pos vs).Alike Datum.AlikeList (readList read pos vs') := by
  induction vs generalizing vs' pos with
  | nil =>
    cases h
    exact .ok .nil
  | cons v vs ih =>
    cases h with
    | @cons _ v' _ vs' h hs =>
      exact ((hread h).inField _).andThen fun x x' hx =>
        (ih hs (pos + 1)).map fun xs xs' hxs => .cons hx hxs

theorem readEntries_alike (hread : ReadsAlike read) {es es' : List (Text × Value)}
    (h : Value.AlikeEntries es es') :
    (readEntries read es).Alike Datum.AlikeEntries (readEntries read es') := by
  induction es generalizing es' with
  | nil =>
    cases h
    exact .ok .nil
  | cons e es ih =>
    cases h with
    | @cons key v v' _ es' h hs =>
      exact ((hread h).inField key).andThen fun x x' hx =>
        (ih hs).map fun xs xs' hxs => .cons key hx hxs

theorem readRequired_alike (hread : ∀ u u', u.Alike u' → (read u).Alike R (read u'))
    {es es' : List (Text × Value)} (h : Value.AlikeEntries es es') (key : Text) :
    (readRequired read es key).Alike R (readRequired read es' key) := by
  rw [readRequired, readRequired]
  rcases Value.lookup?_alike h key with ⟨hno, hno'⟩ | ⟨u, u', hu, hu', hlike⟩
  · rw [hno, hno']
    exact .error ⟨rfl, rfl, rfl⟩
  · rw [hu, hu']
    exact (hread u u' hlike).inField key

theorem readOptional_alike (hread : ReadsAlike read) (zero : Datum)
    {es es' : List (Text × Value)} (h : Value.AlikeEntries es es') (key : Text) :
    (readOptional read zero es key).Alike Datum.Alike (readOptional read zero es' key) := by
  rw [readOptional, readOptional]
  rcases Value.lookup?_alike h key with ⟨hno, hno'⟩ | ⟨u, u', hu, hu', hlike⟩
  · rw [hno, hno']
    exact .ok (.same zero)
  · rw [hu, hu']
    exact (hread hlike).inField key

/-- Null is like no other value. -/
theorem null_iff {u u' : Value} (h : u.Alike u') : u = .null ↔ u' = .null := by
  rcases h.eq_or_isLoose with rfl | ⟨hu, hu'⟩
  · rfl
  · constructor
    · rintro rfl
      cases hu
    · rintro rfl
      cases hu'

/-- **What passes null through reads alike** if what it hands other values to
does. -/
theorem through_alike {outer item : Reader} {f : DeclId → Value → Reading Datum}
    (hne : ∀ u, u ≠ .null → outer.run f u = (item.run f u).map .present)
    (hitem : ReadsAlike (item.run f)) : ReadsAlike (outer.run f) := by
  intro u u' h
  by_cases hu : u = .null
  · obtain rfl : u' = u := ((null_iff h).mp hu).trans hu.symm
    exact .refl .same _
  · rw [hne u hu, hne u' fun hu' => hu ((null_iff h).mpr hu')]
    exact (hitem h).map fun x x' hx => .present hx

/-- **The reader of a type without floating point numbers reads alike** what is
alike, if the deserializers that it runs do. -/
theorem ofType_alike {w : Workspace} {f : DeclId → Value → Reading Datum} {t : TypeExpr}
    (hfloat : ∀ p ∈ t.nodes, p.kind? ≠ some .float) (hf : ∀ b ∈ t.targets, ReadsAlike (f b)) :
    ReadsAlike ((ofType w t).run f) := by
  induction t with
  | missing => exact fun u u' h => .ok (.json h)
  | node k width r elem ih =>
    have hitem : ReadsAlike ((ofType w elem).run f) := by
      refine ih (fun p hp => hfloat p (List.mem_cons_of_mem _ hp)) fun b hb => hf b ?_
      obtain ⟨p, hp, hpb⟩ := List.mem_filterMap.mp hb
      exact List.mem_filterMap.mpr ⟨p, List.mem_cons_of_mem _ hp, hpb⟩
    -- scalars read the same, and the others relate what they are put together of
    cases k with
    | bool => exact fun u u' h => (Value.toBool_alike h).some_map _ fun x => .same _
    | int => exact fun u u' h => (Value.toInt_alike _ h).some_map _ fun x => .same _
    | float => exact absurd rfl (hfloat _ (List.mem_cons_self ..))
    | string => exact fun u u' h => (Value.toText_alike h).some_map _ fun x => .same _
    | bigint => exact fun u u' h => (Value.toBigint_alike h).some_map _ fun x => .same _
    | decimal => exact fun u u' h => (Value.toDecimal_alike h).some_map _ fun x => .same _
    | bytes => exact fun u u' h => (Value.toBytes_alike h).some_map _ fun x => .same _
    | list =>
      intro u u' h
      rw [ofType]
      cases h with
      | same =>
        cases u with
        | list vs =>
          exact (readList_alike hitem (.refl vs) 0).map fun xs xs' hxs => .list hxs
        | _ => exact .error ⟨rfl, rfl, rfl⟩
      | integer hfit h h' => cases h <;> cases h' <;> exact .error ⟨rfl, rfl, rfl⟩
      | list h => exact (readList_alike hitem h 0).map fun xs xs' hxs => .list hxs
      | mapping h h' hs => cases h <;> cases h' <;> exact .error ⟨rfl, rfl, rfl⟩
      | pairs h => exact .error ⟨rfl, rfl, rfl⟩
    | map =>
      intro u u' h
      rw [ofType, run, run]
      exact (Value.toObject_alike h).andThen fun es es' hes =>
        (readEntries_alike hitem hes).map fun xs xs' hxs => .map hxs
    | optional =>
      rw [ofType]
      split
      · exact through_alike (fun u hu => run_nullable_of_ne hu) hitem
      · exact through_alike (fun u hu => run_optional_of_ne hu) hitem
    | ref =>
      rw [ofType]
      cases hr : r.bind (·.target) with
      | none => exact fun u u' h => .ok (.json h)
      | some b =>
        obtain ⟨r', rfl, hb⟩ := Option.bind_eq_some_iff.mp hr
        refine hf b (List.mem_filterMap.mpr ⟨_, List.mem_cons_self .., ?_⟩)
        exact hb
    | _ => exact fun u u' h => .ok (.json h)

/-- So does the reader of a member. -/
theorem ofMember_alike {w : Workspace} {f : DeclId → Value → Reading Datum} {m : LinkedModule}
    {id : DeclId} {name : Text} {t : TypeExpr} (h : ReadsAlike ((ofType w t).run f)) :
    ReadsAlike ((ofMember w m id name t).run f) := by
  rw [ofMember]
  split
  · exact through_alike (fun u hu => run_boxed_of_ne hu) h
  · exact h

end Reader

/-! ## Deserializers -/

namespace ModuleGraph

open Reading

variable {g : ModuleGraph} {a b : DeclId}

/-- **Values of a declaration may hold values of another one**: a reference at
any depth of a type that they hold leads to it. -/
def Uses (g : ModuleGraph) (a b : DeclId) : Prop :=
  ∃ m d, g.Declares a m d ∧ ∃ x ∈ g.workspace.heldTypes d, b ∈ x.2.targets

/-- **No floating point numbers are reached** from a declaration: no type of a
declaration that it leads to has them, at any depth. -/
def FloatFree (g : ModuleGraph) (a : DeclId) : Prop :=
  ∀ b, ReflTransGen g.Uses a b → ∀ m d, g.Declares b m d →
    ∀ x ∈ g.workspace.heldTypes d, ∀ p ∈ x.2.nodes, p.kind? ≠ some .float

theorem FloatFree.next (h : g.FloatFree a) (hab : g.Uses a b) : g.FloatFree b :=
  fun c hc => h c (.head hab hc)

section Bodies

variable {f : DeclId → Value → Reading Datum} {m : LinkedModule} {d : Decl}

/-- The types that a declaration holds are read alike. -/
theorem readsAlike_of_floatFree (hf : ∀ b, g.FloatFree b → ReadsAlike (f b))
    (hfree : g.FloatFree a) (hd : g.Declares a m d) {x : Text × TypeExpr}
    (hx : x ∈ g.workspace.heldTypes d) : ReadsAlike ((Reader.ofType g.workspace x.2).run f) :=
  Reader.ofType_alike (hfree a .refl m d hd x hx) fun b hb =>
    hf b (hfree.next ⟨m, d, hd, x, hx, hb⟩)

theorem readFields_alike (hf : ∀ b, g.FloatFree b → ReadsAlike (f b)) (hfree : g.FloatFree a)
    (hd : g.Declares a m d) {fs : List Field} (hb : d.body = .struct fs)
    {es es' : List (Text × Value)} (hes : Value.AlikeEntries es es') {fs' : List Field}
    (hfs : fs' ⊆ g.workspace.allFields d) :
    (g.readFields f m a es fs').Alike Datum.AlikeEntries (g.readFields f m a es' fs') := by
  induction fs' with
  | nil => exact .ok .nil
  | cons x fs' ih =>
    have hread : ReadsAlike ((Reader.ofMember g.workspace m a x.name x.effectiveType).run f) :=
      Reader.ofMember_alike (readsAlike_of_floatFree hf hfree hd
        (mem_heldTypes_of_field hb (hfs (List.mem_cons_self ..))))
    rw [readFields, readFields]
    refine Alike.andThen (R := Datum.Alike) ?_ fun y y' hy =>
      (ih fun z hz => hfs (List.mem_cons_of_mem x hz)).map fun ys ys' hys => .cons x.name hy hys
    split
    · exact Reader.readRequired_alike (fun u u' h => hread h) hes x.name
    · exact Reader.readOptional_alike hread _ hes x.name

theorem readVariant_alike (hf : ∀ b, g.FloatFree b → ReadsAlike (f b)) (hfree : g.FloatFree a)
    (hd : g.Declares a m d) {es es' : List (Text × Value)} (hes : Value.AlikeEntries es es')
    (tag : Text) :
    (g.readVariant f a d es tag).Alike Datum.Alike (g.readVariant f a d es' tag) := by
  rw [readVariant, readVariant]
  cases hv : d.variants.find? (·.name == tag) with
  | none => exact .error ⟨rfl, rfl, rfl⟩
  | some v =>
    by_cases hvoid : v.isVoid = true
    · simp only [hvoid, if_true]
      exact .ok (.same _)
    · have hread : ReadsAlike ((Reader.ofType g.workspace v.payload).run f) :=
        readsAlike_of_floatFree hf hfree hd
          (mem_heldTypes_of_variant (List.mem_of_find?_eq_some hv) (by simpa using hvoid))
      simp only [hvoid]
      refine Alike.map (R := Datum.Alike) ?_ fun x x' hx => .variant a tag hx
      split
      · exact Reader.readOptional_alike hread _ hes d.payloadKey
      · exact Reader.readRequired_alike (fun u u' h => hread h) hes d.payloadKey

/-- **The deserializer of a declaration reads alike** what is alike, if those
that it runs do. -/
theorem readBody_alike (hf : ∀ b, g.FloatFree b → ReadsAlike (f b)) (hfree : g.FloatFree a)
    (hd : g.Declares a m d) : ReadsAlike (g.readBody f m a d) := by
  intro v v' h
  rw [readBody, readBody]
  cases hb : d.body with
  | struct fs =>
    exact (Value.toObject_alike h).andThen fun es es' hes =>
      (readFields_alike hf hfree hd hb hes fun _ h => h).map fun xs xs' hxs => .record a hxs
  | union vs tag payload =>
    refine (Value.toObject_alike h).andThen fun es es' hes => ?_
    -- the discriminator is the same text, so the same variant is read
    refine Alike.andThen (R := Eq) (Reader.readRequired_alike (fun u u' hu =>
      (Value.toText_alike hu).some_map _ fun _ => rfl) hes d.tagKey) ?_
    rintro x _ rfl
    cases x with
    | text name => exact readVariant_alike hf hfree hd hes name
    | _ => exact .none
  | newtype t =>
    have hread : ReadsAlike ((Reader.ofMember g.workspace m a [] t).run f) :=
      Reader.ofMember_alike (readsAlike_of_floatFree hf hfree hd (mem_heldTypes_of_newtype hb))
    exact (hread h).map fun x x' hx => .wrapped a hx
  | _ => exact .none

end Bodies

/-- To every depth, deserializers read alike what is alike. -/
theorem readDecl_alike (n : Nat) (hfree : g.FloatFree a) : ReadsAlike (g.readDecl n a) := by
  induction n generalizing a with
  | zero => exact fun _ _ _ => .none
  | succ n ih =>
    intro v v' h
    rw [readDecl, readDecl]
    split
    · exact (readBody_alike (fun b hb => ih hb) hfree ⟨‹_›, ‹_›⟩ h).inDecl _
    · exact .none

/-- A deserializer answers the same to any depth from its own on. -/
theorem deserialize_eq_readDecl {v : Value} {n : Nat} (h : g.depthFor v ≤ n) (id : DeclId) :
    g.deserialize id v = g.readDecl n id v :=
  Le.antisymm (readDecl_mono h id v) (readDecl_le_depthFor n id v)

/-- **Decoding does not depend on how integers and mappings are represented.**
For a declaration from which no floating point numbers are reached, the
deserializer answers values that are alike alike: with results that are
the same but for values that are passed through, with errors of one kind
at one place in one declaration, or not at all. -/
theorem deserialize_alike {g : ModuleGraph} {id : DeclId} (hfree : g.FloatFree id)
    {v v' : Value} (h : v.Alike v') :
    (g.deserialize id v).Alike Datum.Alike (g.deserialize id v') := by
  -- the two are run to depths of their own, and answer the same to a common one
  have hv := deserialize_eq_readDecl (Nat.le_max_left (g.depthFor v) (g.depthFor v')) id
  have hv' := deserialize_eq_readDecl (Nat.le_max_right (g.depthFor v) (g.depthFor v')) id
  rw [hv, hv']
  exact readDecl_alike _ hfree h

end ModuleGraph

namespace Sample

open Linking

/-- A module with a struct of an integer, bytes and a value that is passed
through. -/
def posts : Workspace :=
  [{ name := "posts", path := "posts",
     decls :=
       [{ name := "Post", body := .struct
            [required "stars" (.int 8), required "data" (.scalar .bytes),
              required "meta" (.scalar .json)] }] }]

theorem resolve_posts : (resolve posts [0]).2 = .ok (graph posts [0]) :=
  resolve_eq_graph (by decide +kernel)

/-- The struct once it is linked. -/
def post : Decl :=
  { name := "Post"
    body := .struct
      [required "stars" (.int 8), required "data" (.scalar .bytes),
        required "meta" (.scalar .json)] }

theorem exists_declares_post : ∃ m, (graph posts [0]).Declares ⟨0, 0⟩ m post :=
  exists_declares_of_bound (passes_of_resolve resolve_posts).1 ⟨by simp, rfl⟩ rfl

/-- No floating point numbers are reached from the struct, which refers to
nothing. -/
theorem floatFree_post : (graph posts [0]).FloatFree ⟨0, 0⟩ := by
  obtain ⟨m, hm⟩ := exists_declares_post
  have hheld : (graph posts [0]).workspace.heldTypes post =
      ([("stars", .int 8), ("data", .scalar .bytes), ("meta", .scalar .json)] :
        List (Text × TypeExpr)) := rfl
  have htypes : ∀ x ∈ (graph posts [0]).workspace.heldTypes post,
      x.2.targets = [] ∧ ∀ p ∈ x.2.nodes, p.kind? ≠ some .float := by
    rw [hheld]
    decide
  intro b hb n d hd x hx
  rcases ReflTransGen.cases_head hb with rfl | ⟨c, ⟨m', d', hd', y, hy, hc⟩, -⟩
  · obtain ⟨-, rfl⟩ := hm.unique hd
    exact (htypes x hx).2
  · obtain ⟨-, rfl⟩ := hm.unique hd'
    rw [(htypes y hy).1] at hc
    cases hc

/-- A post as one byte format delivers it, and as another one does. -/
def writtenPost : Value :=
  .map [("stars", .int .uint8 3), ("data", .list [.int .int64 7, .int .int64 8]),
    ("meta", .map [("size", .int .int 1)])]

def rewrittenPost : Value :=
  .anyMap [(.text "stars", .number (Text.ofInt 3)),
    (.text "data", .list [.float64 0x401C000000000000, .int .int8 8]),
    (.text "meta", .anyMap [(.text "size", .number (Text.ofInt 1))])]

theorem alike_post : writtenPost.Alike rewrittenPost := by
  have hseven : (Value.float64 0x401C000000000000).IsInteger 7 := .float64 (by decide)
  have hdata : (Value.list [.int .int64 7, .int .int64 8]).Alike
      (.list [.float64 0x401C000000000000, .int .int8 8]) :=
    .list (.cons (.integer (by decide) (.int _) hseven)
      (.cons (.integer (by decide) (.int _) (.int _)) .nil))
  have hmeta : (Value.map [("size", .int .int 1)]).Alike
      (.anyMap [(.text "size", .number (Text.ofInt 1))]) :=
    .mapping .map .anyMap (.cons "size" (.integer (by decide) (.int _) .number) .nil)
  exact .mapping .map .anyMap (.cons "stars" (.integer (by decide) (.int _) .number)
    (.cons "data" hdata (.cons "meta" hmeta .nil)))

/-- **The post is read from both**, with the same stars and data, and with what is
passed through as it came. -/
theorem posts_read_alike : (graph posts [0]).FloatFree ⟨0, 0⟩ ∧ writtenPost.Alike rewrittenPost ∧
    ((graph posts [0]).deserialize ⟨0, 0⟩ writtenPost).Alike Datum.Alike
      ((graph posts [0]).deserialize ⟨0, 0⟩ rewrittenPost) ∧
    ∃ x, (graph posts [0]).deserialize ⟨0, 0⟩ writtenPost = some (.ok x) := by
  refine ⟨floatFree_post, alike_post,
    ModuleGraph.deserialize_alike floatFree_post alike_post, ?_⟩
  obtain ⟨m, hm⟩ := exists_declares_post
  rw [ModuleGraph.deserialize_eq hm.1 hm.2]
  exact ⟨_, rfl⟩

end Sample

end WireModel
